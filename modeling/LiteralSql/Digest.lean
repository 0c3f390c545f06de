import LiteralSql.Text.Hex

/-! The SHA-256 digest of a list of bytes. -/

set_option autoImplicit false

namespace LiteralSql.Sha256

def roundConstants : Array UInt32 := #[
  0x428a2f98, 0x71374491, 0xb5c0fbcf, 0xe9b5dba5, 0x3956c25b, 0x59f111f1, 0x923f82a4, 0xab1c5ed5,
  0xd807aa98, 0x12835b01, 0x243185be, 0x550c7dc3, 0x72be5d74, 0x80deb1fe, 0x9bdc06a7, 0xc19bf174,
  0xe49b69c1, 0xefbe4786, 0x0fc19dc6, 0x240ca1cc, 0x2de92c6f, 0x4a7484aa, 0x5cb0a9dc, 0x76f988da,
  0x983e5152, 0xa831c66d, 0xb00327c8, 0xbf597fc7, 0xc6e00bf3, 0xd5a79147, 0x06ca6351, 0x14292967,
  0x27b70a85, 0x2e1b2138, 0x4d2c6dfc, 0x53380d13, 0x650a7354, 0x766a0abb, 0x81c2c92e, 0x92722c85,
  0xa2bfe8a1, 0xa81a664b, 0xc24b8b70, 0xc76c51a3, 0xd192e819, 0xd6990624, 0xf40e3585, 0x106aa070,
  0x19a4c116, 0x1e376c08, 0x2748774c, 0x34b0bcb5, 0x391c0cb3, 0x4ed8aa4a, 0x5b9cca4f, 0x682e6ff3,
  0x748f82ee, 0x78a5636f, 0x84c87814, 0x8cc70208, 0x90befffa, 0xa4506ceb, 0xbef9a3f7, 0xc67178f2]

structure Chain where
  a : UInt32
  b : UInt32
  c : UInt32
  d : UInt32
  e : UInt32
  f : UInt32
  g : UInt32
  h : UInt32

def initial : Chain :=
  ⟨0x6a09e667, 0xbb67ae85, 0x3c6ef372, 0xa54ff53a, 0x510e527f, 0x9b05688c, 0x1f83d9ab, 0x5be0cd19⟩

def rotate (word : UInt32) (count : UInt32) : UInt32 :=
  (word >>> count) ||| (word <<< (32 - count))

def round (chain : Chain) (constant word : UInt32) : Chain :=
  let sum1 := rotate chain.e 6 ^^^ rotate chain.e 11 ^^^ rotate chain.e 25
  let choice := (chain.e &&& chain.f) ^^^ (~~~chain.e &&& chain.g)
  let temp1 := chain.h + sum1 + choice + constant + word
  let sum0 := rotate chain.a 2 ^^^ rotate chain.a 13 ^^^ rotate chain.a 22
  let majority := (chain.a &&& chain.b) ^^^ (chain.a &&& chain.c) ^^^ (chain.b &&& chain.c)
  ⟨temp1 + sum0 + majority, chain.a, chain.b, chain.c, chain.d + temp1, chain.e, chain.f, chain.g⟩

def schedule (block : Array UInt32) : Array UInt32 :=
  (List.range 48).foldl (fun words index =>
    let word := fun (offset : Nat) => words.getD (index + offset) 0
    let sigma0 := rotate (word 1) 7 ^^^ rotate (word 1) 18 ^^^ (word 1 >>> 3)
    let sigma1 := rotate (word 14) 17 ^^^ rotate (word 14) 19 ^^^ (word 14 >>> 10)
    words.push (word 0 + sigma0 + word 9 + sigma1)) block

def compress (chain : Chain) (block : Array UInt32) : Chain :=
  let words := schedule block
  let last := (List.range 64).foldl (fun state index =>
    round state (roundConstants.getD index 0) (words.getD index 0)) chain
  ⟨chain.a + last.a, chain.b + last.b, chain.c + last.c, chain.d + last.d,
    chain.e + last.e, chain.f + last.f, chain.g + last.g, chain.h + last.h⟩

def bigEndian (bytes : Nat) (value : Nat) : List UInt8 :=
  (List.range bytes).reverse.map fun index => (value / Nat.pow 256 index % 256).toUInt8

/-- A one bit, zeros up to the last eight bytes of a block, and the length in bits. -/
def padding (length : Nat) : List UInt8 :=
  0x80 :: List.replicate ((119 - length % 64) % 64) 0 ++ bigEndian 8 (8 * length)

def words : List UInt8 → List UInt32
  | a :: b :: c :: d :: rest =>
    (a.toUInt32 <<< 24 ||| b.toUInt32 <<< 16 ||| c.toUInt32 <<< 8 ||| d.toUInt32) :: words rest
  | _ => []

def compressAll : Nat → Chain → List UInt32 → Chain
  | 0, chain, _ => chain
  | blocks + 1, chain, rest => compressAll blocks (compress chain (rest.take 16).toArray) (rest.drop 16)

def digest (bytes : List UInt8) : List UInt8 :=
  let padded := words (bytes ++ padding bytes.length)
  let chain := compressAll (padded.length / 16) initial padded
  [chain.a, chain.b, chain.c, chain.d, chain.e, chain.f, chain.g, chain.h].flatMap fun word =>
    bigEndian 4 word.toNat

end LiteralSql.Sha256
