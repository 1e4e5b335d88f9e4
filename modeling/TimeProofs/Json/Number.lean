import TimeProofs.Json.Value

/-!
# JSON numbers

The number production of RFC 8259 §6 over code units, and what `Number(raw)` makes of a token:
the double nearest to the decimal it spells.
-/

namespace TimeProofs.Json

open TimeProofs.Base

/-- The code unit `-`. -/
def minusSign : CodeUnit := 0x2D
/-- The code unit `+`. -/
def plusSign : CodeUnit := 0x2B
/-- The code unit `.`. -/
def fullStop : CodeUnit := 0x2E
/-- The code unit `0`. -/
def zeroDigit : CodeUnit := 0x30

/-- `e` or `E`. -/
def isExponentMark (c : CodeUnit) : Bool := c = 0x65 || c = 0x45

/-- `+` or `-`. -/
def isSign (c : CodeUnit) : Bool := c = plusSign || c = minusSign

/-- `1*DIGIT`. -/
def IsDigits (s : JsString) : Prop := s ≠ [] ∧ ∀ c ∈ s, isDigit c = true

/-- `int = zero / ( digit1-9 *DIGIT )`. -/
inductive IsInt : JsString → Prop
  | zero : IsInt [zeroDigit]
  | digits (d : CodeUnit) (ds : JsString) : isDigit d = true → d ≠ zeroDigit →
      (∀ c ∈ ds, isDigit c = true) → IsInt (d :: ds)

/-- `[ frac ]` with `frac = decimal-point 1*DIGIT`. -/
inductive IsFrac : JsString → Prop
  | absent : IsFrac []
  | digits (ds : JsString) : IsDigits ds → IsFrac (fullStop :: ds)

/-- `[ exp ]` with `exp = e [ minus / plus ] 1*DIGIT`. -/
inductive IsExp : JsString → Prop
  | absent : IsExp []
  | unsigned (e : CodeUnit) (ds : JsString) : isExponentMark e = true → IsDigits ds →
      IsExp (e :: ds)
  | signed (e sign : CodeUnit) (ds : JsString) : isExponentMark e = true →
      isSign sign = true → IsDigits ds → IsExp (e :: sign :: ds)

/-- `number = [ minus ] int [ frac ] [ exp ]`. -/
inductive IsNumber : JsString → Prop
  | positive (int frac exp : JsString) : IsInt int → IsFrac frac → IsExp exp →
      IsNumber (int ++ frac ++ exp)
  | negative (int frac exp : JsString) : IsInt int → IsFrac frac → IsExp exp →
      IsNumber (minusSign :: (int ++ frac ++ exp))

/-- The exponent that a token's exponent part spells. -/
def exponentValue : JsString → Int
  | [] => 0
  | [_] => 0
  | _ :: sign :: ds =>
    if sign = minusSign then -(digitsValue ds : Int)
    else if sign = plusSign then digitsValue ds
    else digitsValue (sign :: ds)

/-- `Number(raw)` on the unsigned part of a token. -/
def magnitudeOf (s : JsString) : Float :=
  let int := s.takeWhile isDigit
  let afterInt := s.dropWhile isDigit
  let frac := if afterInt.head? = some fullStop then afterInt.tail.takeWhile isDigit else []
  let afterFrac :=
    if afterInt.head? = some fullStop then afterInt.tail.dropWhile isDigit else afterInt
  Float.ofModel (Float.Model.ofScientific (digitsValue (int ++ frac))
    (exponentValue afterFrac - frac.length))

/-- `Number(raw)` on a number token: the nearest double, infinite when out of range. -/
def numberOf (raw : JsString) : Float :=
  if raw.head? = some minusSign then -magnitudeOf raw.tail else magnitudeOf raw

example : numberOf (js "-0") = Float.ofBits 0x8000000000000000 := by decide
example : numberOf (js "1.5e3") = numberOf (js "1500") := by decide

/-- What ECMAScript promises of `Number::toString` for a finite number: it prints a token, the
token reads back as the number, and the sign of zero is not printed. -/
structure PrintsBack (print : Float → JsString) (x : Float) : Prop where
  token : IsNumber (print x)
  reads : numberOf (print x) = dropZeroSign x
  zero : print (dropZeroSign x) = print x

/-- Every number in a value prints back. -/
def NumbersPrintBack (print : Float → JsString) : Json → Prop :=
  All (fun _ ↦ True) (PrintsBack print) (fun _ ↦ True)

end TimeProofs.Json
