import CryptoIntrinsics.Digest.Padding

namespace CryptoIntrinsics.Digest.Sha1

structure State where
  a : UInt32
  b : UInt32
  c : UInt32
  d : UInt32
  e : UInt32
deriving DecidableEq, Repr

def initial : State := ⟨0x67452301, 0xefcdab89, 0x98badcfe, 0x10325476, 0xc3d2e1f0⟩

/-- The eighty round words of a block: its sixteen words, then rotated sums of earlier ones. -/
def schedule (block : Octets) : Array UInt32 :=
  (List.range 64).foldl
    (fun w i => w.push (rotateLeft
      (w.getD (i + 13) 0 ^^^ w.getD (i + 8) 0 ^^^ w.getD (i + 2) 0 ^^^ w.getD i 0) 1))
    (wordsBig block).toArray

/-- The function and the constant of a round. -/
def mix (round : Nat) (b c d : UInt32) : UInt32 :=
  if round < 20 then ((b &&& c) ||| (~~~b &&& d)) + 0x5a827999
  else if round < 40 then (b ^^^ c ^^^ d) + 0x6ed9eba1
  else if round < 60 then ((b &&& c) ||| (b &&& d) ||| (c &&& d)) + 0x8f1bbcdc
  else (b ^^^ c ^^^ d) + 0xca62c1d6

def round (s : State) (index : Nat) (word : UInt32) : State :=
  ⟨rotateLeft s.a 5 + mix index s.b s.c s.d + s.e + word, s.a, rotateLeft s.b 30, s.c, s.d⟩

def compress (s : State) (block : Octets) : State :=
  let w := schedule block
  let t := (List.range 80).foldl (fun t i => round t i (w.getD i 0)) s
  ⟨s.a + t.a, s.b + t.b, s.c + t.c, s.d + t.d, s.e + t.e⟩

def State.words (s : State) : List UInt32 := [s.a, s.b, s.c, s.d, s.e]

def hash (message : Octets) : Octets :=
  wordOctets .big (absorb 64 compress initial (pad .big 64 8 message)).words

theorem length_hash (message : Octets) : (hash message).length = 20 := by
  simp [hash, length_wordOctets, State.words]

end CryptoIntrinsics.Digest.Sha1
