import Evergreen.Word

/-!
# Floating-point numbers with two places

A double is a whole number times a power of two; its two-place text is that exact value
rounded to hundredths, a half going to the even neighbour.
-/

namespace Evergreen.Text

/-- Rounds `num / den` to the nearest whole number, a half to the even one. -/
def roundHalfEven (num den : Nat) : Nat :=
  let q := num / den
  let twice := 2 * (num % den)
  if twice < den then q
  else if den < twice then q + 1
  else if q % 2 = 0 then q else q + 1

/-- The hundredths in the non-negative double with these bits. -/
def hundredths (bits : Nat) : Nat :=
  let exponent := (bits >>> 52) % (1 <<< 11)
  let fraction := bits % (1 <<< 52)
  -- The value is `mantissa * 2 ^ (power - 1075)`.
  let mantissa := if exponent = 0 then fraction else (1 <<< 52) + fraction
  let power := if exponent = 0 then 1 else exponent
  if 1075 ≤ power then (mantissa <<< (power - 1075)) * 100
  else roundHalfEven (mantissa * 100) (1 <<< (1075 - power))

/-- A non-negative double with two places after the point. -/
def twoPlaces (x : Float) : String :=
  let n := hundredths x.toBits.toNat
  toString (n / 100) ++ "." ++ toString (n % 100 / 10) ++ toString (n % 10)

/-- The sixteen hexadecimal digits of a double's bits. -/
def bitPattern (x : Float) : String :=
  String.ofList ((Nat.toDigits 16 (wordSize + x.toBits.toNat)).drop 1)

/-- What is rounded is at most half a unit off. -/
theorem roundHalfEven_within {num den : Nat} (h : 0 < den) :
    2 * num ≤ (2 * roundHalfEven num den + 1) * den ∧
      2 * roundHalfEven num den * den ≤ 2 * num + den := by
  have hdiv := Nat.div_add_mod num den
  have hlt := Nat.mod_lt num h
  have e : num = den * (num / den) + num % den := hdiv.symm
  have expand : ∀ k, 2 * (num / den + k) * den = 2 * (den * (num / den)) + 2 * k * den := by
    intro k
    rw [Nat.mul_add, Nat.add_mul, Nat.mul_assoc 2 (num / den) den, Nat.mul_comm (num / den) den]
  have down := expand 0
  have up := expand 1
  simp only [Nat.add_zero, Nat.mul_zero, Nat.zero_mul, Nat.mul_one] at down up
  simp only [roundHalfEven, Nat.add_mul (2 * _), Nat.one_mul]
  split
  · omega
  · split
    · omega
    · split <;> omega

end Evergreen.Text
