import InterceptingProxy.Text

set_option autoImplicit false

/-! # Lengths of time

A length of time is written in the largest unit that leaves a whole part, with as few decimals as
it needs. -/

namespace InterceptingProxy

/-- A number of milliseconds as a length of time. -/
def Text.ofMilliseconds (n : Nat) : Text :=
  if n = 0 then "0ns".toList
  else if n < 1000 then Text.ofNat n ++ "ms".toList
  else
    let rest := n % 1000
    let digits := [rest / 100, rest / 10 % 10, rest % 10].flatMap Text.ofNat
    let fraction := dropEndWhile (· == '0') digits
    Text.ofNat (n / 1000) ++ (if fraction.isEmpty then [] else '.' :: fraction) ++ ['s']

end InterceptingProxy
