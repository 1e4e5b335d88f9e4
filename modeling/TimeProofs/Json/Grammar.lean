import TimeProofs.Json.Number

/-!
# The RFC 8259 grammar

The JSON grammar over UTF-16 code units, with the value each production denotes. A production
relates the text it starts at to the text that follows it. The grammar itself admits repeated
member names, unpaired surrogates behind escapes and tokens whose number overflows; what the
strict profile adds to it is the predicate `Strict` on the denoted value.
-/

namespace TimeProofs.Json

open TimeProofs.Base

/-- The quotation mark. -/
def quotationMark : CodeUnit := 0x22
/-- The reverse solidus. -/
def backslash : CodeUnit := 0x5C
/-- The left square bracket. -/
def beginArray : CodeUnit := 0x5B
/-- The right square bracket. -/
def endArray : CodeUnit := 0x5D
/-- The left curly bracket. -/
def beginObject : CodeUnit := 0x7B
/-- The right curly bracket. -/
def endObject : CodeUnit := 0x7D
/-- The colon. -/
def nameSeparator : CodeUnit := 0x3A
/-- The comma. -/
def valueSeparator : CodeUnit := 0x2C
/-- The letter `u` of a Unicode escape. -/
def letterU : CodeUnit := 0x75

/-- Space, tab, line feed or carriage return. -/
def isWhitespace (c : CodeUnit) : Bool := c = 0x20 || c = 0x09 || c = 0x0A || c = 0x0D

/-- `0` to `9`, `A` to `F` or `a` to `f`. -/
def isHexDigit (c : CodeUnit) : Bool :=
  isDigit c || (0x41 ≤ c.toNat && c.toNat ≤ 0x46) || (0x61 ≤ c.toNat && c.toNat ≤ 0x66)

/-- The value of a hexadecimal digit. -/
def hexDigitValue (c : CodeUnit) : Nat :=
  if c.toNat ≤ 0x39 then c.toNat - 0x30
  else if c.toNat ≤ 0x46 then c.toNat - 0x41 + 10
  else c.toNat - 0x61 + 10

/-- The code unit that four hexadecimal digits spell. -/
def hexUnit (a b c d : CodeUnit) : CodeUnit :=
  UInt16.ofNat (4096 * hexDigitValue a + 256 * hexDigitValue b + 16 * hexDigitValue c +
    hexDigitValue d)

/-- The code unit of a two-character escape. -/
def simpleEscape (e : CodeUnit) : Option CodeUnit :=
  if e = quotationMark then some quotationMark
  else if e = backslash then some backslash
  else if e = 0x2F then some 0x2F
  else if e = 0x62 then some 0x08
  else if e = 0x66 then some 0x0C
  else if e = 0x6E then some 0x0A
  else if e = 0x72 then some 0x0D
  else if e = 0x74 then some 0x09
  else none

/-! ### Productions -/

/-- `ws`. -/
inductive Ws : JsString → JsString → Prop
  | nil (s : JsString) : Ws s s
  | cons {c : CodeUnit} {s t : JsString} : isWhitespace c = true → Ws s t → Ws (c :: s) t

/-- `*char quotation-mark`, with the decoded characters. -/
inductive Chars : JsString → JsString → JsString → Prop
  | close (rest : JsString) : Chars (quotationMark :: rest) [] rest
  | unescaped {c : CodeUnit} {s d rest : JsString} : 0x20 ≤ c.toNat → c ≠ quotationMark →
      c ≠ backslash → Chars s d rest → Chars (c :: s) (c :: d) rest
  | simple {e c : CodeUnit} {s d rest : JsString} : simpleEscape e = some c →
      Chars s d rest → Chars (backslash :: e :: s) (c :: d) rest
  | unicode {a b c e : CodeUnit} {s d rest : JsString} : isHexDigit a = true →
      isHexDigit b = true → isHexDigit c = true → isHexDigit e = true → Chars s d rest →
      Chars (backslash :: letterU :: a :: b :: c :: e :: s) (hexUnit a b c e :: d) rest

mutual

/-- `value`. -/
inductive Value : JsString → Json → JsString → Prop
  | nullLiteral (t : JsString) : Value (js "null" ++ t) .null t
  | falseLiteral (t : JsString) : Value (js "false" ++ t) (.bool false) t
  | trueLiteral (t : JsString) : Value (js "true" ++ t) (.bool true) t
  | number {raw : JsString} (t : JsString) : IsNumber raw →
      Value (raw ++ t) (.num (numberOf raw)) t
  | string {s d t : JsString} : Chars s d t → Value (quotationMark :: s) (.str d) t
  | emptyArray {s t : JsString} : Ws s (endArray :: t) → Value (beginArray :: s) (.arr []) t
  | array {s u t : JsString} {items : List Json} : Ws s u → Elements u items t →
      Value (beginArray :: s) (.arr items) t
  | emptyObject {s t : JsString} : Ws s (endObject :: t) →
      Value (beginObject :: s) (.obj []) t
  | object {s u t : JsString} {members : Members} : Ws s u → MemberList u members t →
      Value (beginObject :: s) (.obj members) t

/-- `value *( value-separator value ) end-array`. -/
inductive Elements : JsString → List Json → JsString → Prop
  | last {s u t : JsString} {v : Json} : Value s v u → Ws u (endArray :: t) →
      Elements s [v] t
  | more {s u w x t : JsString} {v : Json} {items : List Json} : Value s v u →
      Ws u (valueSeparator :: w) → Ws w x → Elements x items t → Elements s (v :: items) t

/-- `member *( value-separator member ) end-object`. -/
inductive MemberList : JsString → Members → JsString → Prop
  | last {s u w x y t k : JsString} {v : Json} : Chars s k u → Ws u (nameSeparator :: w) →
      Ws w x → Value x v y → Ws y (endObject :: t) →
      MemberList (quotationMark :: s) [(k, v)] t
  | more {s u w x y z a t k : JsString} {v : Json} {members : Members} : Chars s k u →
      Ws u (nameSeparator :: w) → Ws w x → Value x v y → Ws y (valueSeparator :: z) →
      Ws z a → MemberList a members t → MemberList (quotationMark :: s) ((k, v) :: members) t

end

/-- `JSON-text = ws value ws`, denoting `v`. -/
def IsText (text : JsString) (v : Json) : Prop :=
  ∃ s t, Ws text s ∧ Value s v t ∧ Ws t []

end TimeProofs.Json
