import Gateway.Digest.Sha256
import Gateway.Text.Digits
/-!
# Request identifiers

Every request gets an identifier of sixteen hexadecimal digits, which only serves to find its lines
in the log. It is the first half of a random identifier of version four, so its thirteenth digit is
a four; the randomness comes from the digest of a number that differs from request to request.
-/

namespace Gateway.RequestId

/-- The number of digits of an identifier. -/
def size : Nat := 16

/-- The digits that an identifier takes its randomness from. -/
def digits (n : Nat) : List Char :=
  Text.hexBytes (Sha256.digest (Utf8.encode (Text.decimal n)))

/-- The identifier of the request with a given number. -/
def ofNumber (n : Nat) : List Char :=
  (digits n).take 12 ++ ['4'] ++ ((digits n).drop 13).take 3

end Gateway.RequestId
