/-! # Hexadecimal numerals of a fixed width -/

namespace DefensiveCopy.Text

/-- The lower-case hexadecimal digits of `n`, filled up on the left with zeros to `width`. -/
def hexChars (width n : Nat) : List Char :=
  let digits := Nat.toDigits 16 n
  List.replicate (width - digits.length) '0' ++ digits

/-- The lower-case hexadecimal numeral of `n` with at least `width` digits. -/
def hex (width n : Nat) : String :=
  String.ofList (hexChars width n)

end DefensiveCopy.Text
