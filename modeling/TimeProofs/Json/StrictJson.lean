import TimeProofs.Json.Grammar
import TimeProofs.Core.ErrorCodes

/-!
# The strict JSON parser

`packages/core/src/strict-json.mjs`. The source keeps one `position`; here a parsing function
takes the text from that position on and returns the text after what it read, and an error
remembers how much text was left, from which the top level computes the position. The
recursive functions carry fuel, which `parseJsonStrict` supplies in proportion to the text.
-/

namespace TimeProofs.Json

open TimeProofs.Base TimeProofs.Core

/-- How a parsing function stops short; `remaining` is the length of the text left. -/
inductive Fault where
  | strictJson (code : ErrorCode) (message : JsString) (remaining : Nat)
  | typeError (message : JsString)
  | fuel

/-- The outcome of a parsing function. -/
abbrev Parse (α : Type) := Except Fault α

/-- `StrictJsonError`, `strict-json.mjs:1–8`. -/
structure StrictJsonError where
  code : ErrorCode
  message : JsString
  position : Nat

/-- What `parseJsonStrict` throws. -/
inductive ParseError where
  | strictJson (error : StrictJsonError)
  | typeError (message : JsString)
  | fuel

/-- `fail(code, message, at)` with `remaining` units of text after `at`. -/
def fail {α : Type} (code : ErrorCode) (message : String) (remaining : Nat) : Parse α :=
  .error (.strictJson code (js message) remaining)

/-- The escape of one code unit in `JSON.stringify`. -/
def quoteUnit (c : CodeUnit) : JsString :=
  if c = quotationMark then [backslash, quotationMark]
  else if c = backslash then [backslash, backslash]
  else if c = 0x08 then [backslash, 0x62]
  else if c = 0x09 then [backslash, 0x74]
  else if c = 0x0A then [backslash, 0x6E]
  else if c = 0x0C then [backslash, 0x66]
  else if c = 0x0D then [backslash, 0x72]
  else if c.toNat < 0x20 || isHighSurrogate c || isLowSurrogate c then
    [backslash, letterU, hexLower (c.toNat / 4096), hexLower (c.toNat / 256 % 16),
      hexLower (c.toNat / 16 % 16), hexLower (c.toNat % 16)]
  else [c]

/-- The characters between the quotation marks of `JSON.stringify(s)`. -/
def quoteUnits : JsString → JsString
  | [] => []
  | [c] => quoteUnit c
  | c :: next :: rest =>
    if isHighSurrogate c && isLowSurrogate next then c :: next :: quoteUnits rest
    else quoteUnit c ++ quoteUnits (next :: rest)

/-- `JSON.stringify(s)` of a string. -/
def quoteJson (s : JsString) : JsString := quotationMark :: (quoteUnits s ++ [quotationMark])

/-- `assertValidUnicode`, `strict-json.mjs:10–23`; the error is the message of the `TypeError`. -/
def assertValidUnicode (path : JsString) : JsString → Except JsString Unit
  | [] => .ok ()
  | [c] =>
    if isHighSurrogate c then .error (js "UNPAIRED_HIGH_SURROGATE at " ++ path)
    else if isLowSurrogate c then .error (js "UNPAIRED_LOW_SURROGATE at " ++ path)
    else .ok ()
  | c :: next :: rest =>
    if isHighSurrogate c then
      if isLowSurrogate next then assertValidUnicode path rest
      else .error (js "UNPAIRED_HIGH_SURROGATE at " ++ path)
    else if isLowSurrogate c then .error (js "UNPAIRED_LOW_SURROGATE at " ++ path)
    else assertValidUnicode path (next :: rest)

/-- Four hexadecimal digits, `strict-json.mjs:75–80` and `86–90`. -/
def readHex (message : String) : JsString → Parse (CodeUnit × JsString)
  | a :: b :: c :: d :: rest =>
    if isHexDigit a && isHexDigit b && isHexDigit c && isHexDigit d then
      .ok (hexUnit a b c d, rest)
    else fail .invalidUnicodeEscape message (a :: b :: c :: d :: rest).length
  | s => fail .invalidUnicodeEscape message s.length

/-- A Unicode escape after its `\u`, `strict-json.mjs:75–104`. -/
def readUnicodeEscape (s : JsString) : Parse (JsString × JsString) := do
  let (first, s) ← readHex "Expected four hexadecimal digits" s
  if isHighSurrogate first then
    if s.take 2 ≠ [backslash, letterU] then
      fail .unpairedHighSurrogate
        "High surrogate must be followed by a low surrogate escape" s.length
    else
      let (second, s) ←
        readHex "Expected four hexadecimal digits for low surrogate" (s.drop 2)
      if !isLowSurrogate second then
        fail .unpairedHighSurrogate "Expected low surrogate escape" (s.length + 4)
      else .ok ([first, second], s)
  else if isLowSurrogate first then
    fail .unpairedLowSurrogate
      "Low surrogate cannot appear without a preceding high surrogate" (s.length + 4)
  else .ok ([first], s)

/-- An escape after its backslash, `strict-json.mjs:53–105`. -/
def readEscape : JsString → Parse (JsString × JsString)
  | [] => fail .invalidEscape "Unterminated escape sequence" 0
  | escape :: s =>
    match simpleEscape escape with
    | some c => .ok ([c], s)
    | none =>
      if escape ≠ letterU then
        .error (.strictJson .invalidEscape (js "Unsupported escape \\" ++ [escape])
          (s.length + 2))
      else readUnicodeEscape s

/-- An unescaped character, `strict-json.mjs:107–122`. -/
def readUnescaped (c : CodeUnit) (s : JsString) : Parse (JsString × JsString) :=
  if c.toNat < 0x20 then
    fail .unescapedControlCharacter "Control characters must be escaped" (s.length + 1)
  else if isHighSurrogate c then
    match s with
    | next :: rest =>
      if isLowSurrogate next then .ok ([c, next], rest)
      else fail .unpairedHighSurrogate "Invalid Unicode scalar value" (s.length + 1)
    | [] => fail .unpairedHighSurrogate "Invalid Unicode scalar value" (s.length + 1)
  else if isLowSurrogate c then
    fail .unpairedLowSurrogate "Invalid Unicode scalar value" (s.length + 1)
  else .ok ([c], s)

/-- The loop of `parseString`, `strict-json.mjs:45–125`. -/
def stringLoop : Nat → JsString → JsString → Parse (JsString × JsString)
  | 0, _, _ => .error .fuel
  | _ + 1, _, [] => fail .unterminatedString "String was not terminated" 0
  | fuel + 1, output, c :: s =>
    if c = quotationMark then
      match assertValidUnicode (js "$") output with
      | .ok _ => .ok (output, s)
      | .error message => .error (.typeError message)
    else if c = backslash then do
      let (decoded, s) ← readEscape s
      stringLoop fuel (output ++ decoded) s
    else do
      let (decoded, s) ← readUnescaped c s
      stringLoop fuel (output ++ decoded) s

/-- `parseString`, `strict-json.mjs:40–126`. -/
def parseString : JsString → Parse (JsString × JsString)
  | c :: s =>
    if c = quotationMark then stringLoop (s.length + 1) [] s
    else fail .expectedString "Expected opening quote" (s.length + 1)
  | [] => fail .expectedString "Expected opening quote" 0

/-- `/[0-9]/u.test(text[position] ?? '')`. -/
def startsWithDigit (s : JsString) : Bool := s.head?.any isDigit

/-- The integer component, `strict-json.mjs:132–141`. -/
def scanInt (s : JsString) : Parse JsString :=
  if s.head? = some zeroDigit then
    if startsWithDigit s.tail then
      fail .leadingZero "Leading zero is not permitted" s.tail.length
    else .ok s.tail
  else if startsWithDigit s then .ok (s.dropWhile isDigit)
  else fail .invalidNumber "Expected integer component" s.length

/-- The fraction, `strict-json.mjs:143–147`. -/
def scanFrac (s : JsString) : Parse JsString :=
  if s.head? = some fullStop then
    if startsWithDigit s.tail then .ok (s.tail.dropWhile isDigit)
    else fail .invalidNumber "Expected fraction digit" s.tail.length
  else .ok s

/-- The exponent, `strict-json.mjs:149–154`. -/
def scanExp (s : JsString) : Parse JsString :=
  if s.head?.any isExponentMark then
    let digits := if s.tail.head?.any isSign then s.tail.tail else s.tail
    if startsWithDigit digits then .ok (digits.dropWhile isDigit)
    else fail .invalidNumber "Expected exponent digit" digits.length
  else .ok s

/-- `parseNumber`, `strict-json.mjs:128–160`. -/
def parseNumber (start : JsString) : Parse (Json × JsString) := do
  let s := if start.head? = some minusSign then start.tail else start
  let s ← scanInt s
  let s ← scanFrac s
  let s ← scanExp s
  let raw := start.take (start.length - s.length)
  let value := numberOf raw
  if !value.isFinite then
    fail .nonFiniteNumber "Number is outside the supported finite range" start.length
  else .ok (.num value, s)

/-- `skipWhitespace`, `strict-json.mjs:34–38`. -/
def skipWhitespace (s : JsString) : JsString := s.dropWhile isWhitespace

/-- `parseKeyword`, `strict-json.mjs:217–223`. -/
def parseKeyword (keyword : String) (value : Json) (s : JsString) : Parse (Json × JsString) :=
  if s.take (js keyword).length ≠ js keyword then
    fail .invalidLiteral ("Expected " ++ keyword) s.length
  else .ok (value, s.drop (js keyword).length)

mutual

/-- `parseValue`, `strict-json.mjs:225–236`. -/
def parseValue : Nat → JsString → Parse (Json × JsString)
  | 0, _ => .error .fuel
  | fuel + 1, s =>
    match skipWhitespace s with
    | [] => fail .unexpectedToken "Unexpected token undefined" 0
    | c :: rest =>
      if c = quotationMark then do
        let (d, t) ← parseString (c :: rest)
        .ok (.str d, t)
      else if c = beginObject then parseObject fuel rest
      else if c = beginArray then parseArray fuel rest
      else if c = 0x74 then parseKeyword "true" (.bool true) (c :: rest)
      else if c = 0x66 then parseKeyword "false" (.bool false) (c :: rest)
      else if c = 0x6E then parseKeyword "null" .null (c :: rest)
      else if c = minusSign || isDigit c then parseNumber (c :: rest)
      else .error (.strictJson .unexpectedToken (js "Unexpected token " ++ quoteJson [c])
        (rest.length + 1))

/-- `parseArray` after its bracket, `strict-json.mjs:162–183`. -/
def parseArray : Nat → JsString → Parse (Json × JsString)
  | 0, _ => .error .fuel
  | fuel + 1, s =>
    let s := skipWhitespace s
    if s.head? = some endArray then .ok (.arr [], s.tail)
    else do
      let (items, t) ← parseElements fuel s
      .ok (.arr items, t)

/-- The loop of `parseArray`, `strict-json.mjs:171–182`. -/
def parseElements : Nat → JsString → Parse (List Json × JsString)
  | 0, _ => .error .fuel
  | fuel + 1, s => do
    let (v, s) ← parseValue fuel s
    let s := skipWhitespace s
    if s.head? = some endArray then .ok ([v], s.tail)
    else if s.head? ≠ some valueSeparator then
      fail .expectedComma "Expected comma between array elements" s.length
    else
      let (items, t) ← parseElements fuel (skipWhitespace s.tail)
      .ok (v :: items, t)

/-- `parseObject` after its brace, `strict-json.mjs:185–215`. -/
def parseObject : Nat → JsString → Parse (Json × JsString)
  | 0, _ => .error .fuel
  | fuel + 1, s =>
    let s := skipWhitespace s
    if s.head? = some endObject then .ok (.obj [], s.tail)
    else do
      let (members, t) ← parseMembers fuel [] s
      .ok (.obj members, t)

/-- The loop of `parseObject`, `strict-json.mjs:195–214`; `keys` are the names read so far. -/
def parseMembers : Nat → List JsString → JsString → Parse (Members × JsString)
  | 0, _, _ => .error .fuel
  | fuel + 1, keys, s =>
    if s.head? ≠ some quotationMark then
      fail .expectedPropertyName "Object property names must be strings" s.length
    else do
      let (key, afterKey) ← parseString s
      if key ∈ keys then
        .error (.strictJson .duplicateProperty
          (js "Duplicate property name " ++ quoteJson key) s.length)
      else
        let s := skipWhitespace afterKey
        if s.head? ≠ some nameSeparator then
          fail .expectedColon "Expected colon after property name" s.length
        else
          let (v, s) ← parseValue fuel (skipWhitespace s.tail)
          let s := skipWhitespace s
          if s.head? = some endObject then .ok ([(key, v)], s.tail)
          else if s.head? ≠ some valueSeparator then
            fail .expectedComma "Expected comma between object members" s.length
          else
            let (members, t) ← parseMembers fuel (key :: keys) (skipWhitespace s.tail)
            .ok ((key, v) :: members, t)

end

/-- The value of a whole text and the check for trailing data, `strict-json.mjs:238–242`. -/
def parseText (text : JsString) : Parse Json := do
  let (value, rest) ← parseValue (3 * text.length + 1) text
  let rest := skipWhitespace rest
  if rest ≠ [] then fail .trailingData "Unexpected data after JSON value" rest.length
  else .ok value

/-- The error object for a fault in a text of the given length. -/
def Fault.toError (length : Nat) : Fault → ParseError
  | .strictJson code message remaining =>
    let position := length - remaining
    .strictJson
      { code
        message := js code.text ++ js " at position " ++ decimal position ++ js ": " ++ message
        position }
  | .typeError message => .typeError message
  | .fuel => .fuel

/-- `parseJsonStrict`, `strict-json.mjs:25–243`. -/
def parseJsonStrict (text : JsString) : Except ParseError Json :=
  (parseText text).mapError (Fault.toError text.length)

end TimeProofs.Json
