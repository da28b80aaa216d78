import Mathlib.Data.String.Basic
import Mathlib.Data.Nat.Bitwise

/-!
# SHA-256

The hash function of FIPS 180-4 on lists of bytes, and the text of a digest in hexadecimal
digits, which determines the digest (`hexEncode_injective`).  A word is a natural number
below `2 ^ 32`, and a state of the compression is the list of its eight working variables,
so that the digests of short texts evaluate in the kernel.
-/

namespace Sha256

/-! ## Words -/

/-- Addition modulo `2 ^ 32`. -/
def add (x y : Nat) : Nat := (x + y) % 2 ^ 32

/-- The rotation to the right by `n` bits. -/
def rotr (n x : Nat) : Nat := (x >>> n ||| x <<< (32 - n)) % 2 ^ 32

/-- The function `Ch`. -/
def ch (x y z : Nat) : Nat := (x &&& y) ^^^ ((2 ^ 32 - 1 - x) &&& z)

/-- The function `Maj`. -/
def maj (x y z : Nat) : Nat := (x &&& y) ^^^ (x &&& z) ^^^ (y &&& z)

/-- The function `Σ₀`. -/
def bigSigma0 (x : Nat) : Nat := rotr 2 x ^^^ rotr 13 x ^^^ rotr 22 x

/-- The function `Σ₁`. -/
def bigSigma1 (x : Nat) : Nat := rotr 6 x ^^^ rotr 11 x ^^^ rotr 25 x

/-- The function `σ₀`. -/
def smallSigma0 (x : Nat) : Nat := rotr 7 x ^^^ rotr 18 x ^^^ (x >>> 3)

/-- The function `σ₁`. -/
def smallSigma1 (x : Nat) : Nat := rotr 17 x ^^^ rotr 19 x ^^^ (x >>> 10)

/-- The constants `K`. -/
def roundConstants : List Nat := [
  0x428a2f98, 0x71374491, 0xb5c0fbcf, 0xe9b5dba5, 0x3956c25b, 0x59f111f1, 0x923f82a4,
  0xab1c5ed5, 0xd807aa98, 0x12835b01, 0x243185be, 0x550c7dc3, 0x72be5d74, 0x80deb1fe,
  0x9bdc06a7, 0xc19bf174, 0xe49b69c1, 0xefbe4786, 0x0fc19dc6, 0x240ca1cc, 0x2de92c6f,
  0x4a7484aa, 0x5cb0a9dc, 0x76f988da, 0x983e5152, 0xa831c66d, 0xb00327c8, 0xbf597fc7,
  0xc6e00bf3, 0xd5a79147, 0x06ca6351, 0x14292967, 0x27b70a85, 0x2e1b2138, 0x4d2c6dfc,
  0x53380d13, 0x650a7354, 0x766a0abb, 0x81c2c92e, 0x92722c85, 0xa2bfe8a1, 0xa81a664b,
  0xc24b8b70, 0xc76c51a3, 0xd192e819, 0xd6990624, 0xf40e3585, 0x106aa070, 0x19a4c116,
  0x1e376c08, 0x2748774c, 0x34b0bcb5, 0x391c0cb3, 0x4ed8aa4a, 0x5b9cca4f, 0x682e6ff3,
  0x748f82ee, 0x78a5636f, 0x84c87814, 0x8cc70208, 0x90befffa, 0xa4506ceb, 0xbef9a3f7,
  0xc67178f2]

/-- The initial hash value. -/
def initialState : List Nat := [
  0x6a09e667, 0xbb67ae85, 0x3c6ef372, 0xa54ff53a, 0x510e527f, 0x9b05688c, 0x1f83d9ab,
  0x5be0cd19]

/-! ## Messages -/

/-- The bytes of `x` in `n` places, most significant first. -/
def bigEndian (n x : Nat) : List UInt8 :=
  (List.range n).reverse.map fun i => UInt8.ofNat (x >>> (8 * i) % 256)

/-- The message with the padding that makes it a number of blocks. -/
def pad (bytes : List UInt8) : List UInt8 :=
  bytes ++ 0x80 :: (List.replicate ((119 - bytes.length % 64) % 64) 0 ++
    bigEndian 8 (8 * bytes.length))

/-- The words of the next `n` groups of four bytes. -/
def words : Nat → List UInt8 → List Nat
  | n + 1, a :: b :: c :: d :: bytes =>
      (a.toNat <<< 24 ||| b.toNat <<< 16 ||| c.toNat <<< 8 ||| d.toNat) :: words n bytes
  | _, _ => []

/-- The message schedule from its last 16 words, with `n` words to come. -/
def schedule : Nat → List Nat → List Nat
  | 0, window => window
  | n + 1, window =>
      let next := add (add (smallSigma1 (window.getD 14 0)) (window.getD 9 0))
        (add (smallSigma0 (window.getD 1 0)) (window.getD 0 0))
      window.head?.toList ++ schedule n (window.tail ++ [next])

/-! ## Compression -/

/-- One round, with the word and the constant of the round. -/
def round : List Nat → Nat × Nat → List Nat
  | [a, b, c, d, e, f, g, h], (w, k) =>
      let t1 := add (add (add h (bigSigma1 e)) (add (ch e f g) k)) w
      let t2 := add (bigSigma0 a) (maj a b c)
      [add t1 t2, a, b, c, add d t1, e, f, g]
  | state, _ => state

/-- The state after one block. -/
def compress (state : List Nat) (block : List UInt8) : List Nat :=
  let rounds := (schedule 48 (words 16 block)).zip roundConstants
  List.zipWith add state (rounds.foldl round state)

/-- The state after `n` blocks. -/
def blocks : Nat → List Nat → List UInt8 → List Nat
  | 0, state, _ => state
  | n + 1, state, bytes => blocks n (compress state (bytes.take 64)) (bytes.drop 64)

/-- The digest of a message. -/
def digest (bytes : List UInt8) : List UInt8 :=
  let padded := pad bytes
  (blocks (padded.length / 64) initialState padded).flatMap (bigEndian 4)

-- the digest of `abc`
example : digest [0x61, 0x62, 0x63] = [
    0xba, 0x78, 0x16, 0xbf, 0x8f, 0x01, 0xcf, 0xea, 0x41, 0x41, 0x40, 0xde, 0x5d, 0xae, 0x22,
    0x23, 0xb0, 0x03, 0x61, 0xa3, 0x96, 0x17, 0x7a, 0x9c, 0xb4, 0x10, 0xff, 0x61, 0xf2, 0x00,
    0x15, 0xad] := by decide +kernel

/-! ## Hexadecimal digits -/

/-- The two digits of a byte. -/
def hexByte (b : UInt8) : List Char :=
  [Nat.digitChar (b.toNat / 16), Nat.digitChar (b.toNat % 16)]

/-- The text of a list of bytes. -/
def hexEncode (bytes : List UInt8) : String := String.ofList (bytes.flatMap hexByte)

theorem digitChar_injOn : ∀ a < 16, ∀ b < 16, Nat.digitChar a = Nat.digitChar b → a = b := by
  decide

theorem hexByte_injective : Function.Injective hexByte := by
  intro a b h
  have ha := a.toNat_lt
  have hb := b.toNat_lt
  obtain ⟨hhi, hlo⟩ := List.cons_eq_cons.mp h
  have hdiv := digitChar_injOn _ (by omega) _ (by omega) hhi
  have hmod := digitChar_injOn _ (by omega) _ (by omega) (List.cons_eq_cons.mp hlo).1
  exact UInt8.toNat_inj.mp (by omega)

theorem flatMap_hexByte_injective : ∀ {as bs : List UInt8},
    as.flatMap hexByte = bs.flatMap hexByte → as = bs
  | [], [], _ => rfl
  | [], _ :: _, h => nomatch h
  | _ :: _, [], h => nomatch h
  | a :: as, b :: bs, h => by
      rw [List.flatMap_cons, List.flatMap_cons] at h
      obtain ⟨hbyte, hrest⟩ := List.append_inj h rfl
      rw [hexByte_injective hbyte, flatMap_hexByte_injective hrest]

/-- A text of digits determines the bytes. -/
theorem hexEncode_injective : Function.Injective hexEncode := fun _ _ h =>
  flatMap_hexByte_injective (String.ofList_injective h)

end Sha256
