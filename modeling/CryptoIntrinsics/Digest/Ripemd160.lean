import CryptoIntrinsics.Digest.Padding

namespace CryptoIntrinsics.Digest.Ripemd160

/-- The word that each round of the left line takes. -/
def leftWords : List Nat :=
  [0, 1, 2, 3, 4, 5, 6, 7, 8, 9, 10, 11, 12, 13, 14, 15,
   7, 4, 13, 1, 10, 6, 15, 3, 12, 0, 9, 5, 2, 14, 11, 8,
   3, 10, 14, 4, 9, 15, 8, 1, 2, 7, 0, 6, 13, 11, 5, 12,
   1, 9, 11, 10, 0, 8, 12, 4, 13, 3, 7, 15, 14, 5, 6, 2,
   4, 0, 5, 9, 7, 12, 2, 10, 14, 1, 3, 8, 11, 6, 15, 13]

def rightWords : List Nat :=
  [5, 14, 7, 0, 9, 2, 11, 4, 13, 6, 15, 8, 1, 10, 3, 12,
   6, 11, 3, 7, 0, 13, 5, 10, 14, 15, 8, 12, 4, 9, 1, 2,
   15, 5, 1, 3, 7, 14, 6, 9, 11, 8, 12, 2, 10, 0, 4, 13,
   8, 6, 4, 1, 3, 11, 15, 0, 5, 12, 2, 13, 9, 7, 10, 14,
   12, 15, 10, 4, 1, 5, 8, 7, 6, 2, 13, 14, 0, 3, 9, 11]

def leftShifts : List UInt32 :=
  [11, 14, 15, 12, 5, 8, 7, 9, 11, 13, 14, 15, 6, 7, 9, 8,
   7, 6, 8, 13, 11, 9, 7, 15, 7, 12, 15, 9, 11, 7, 13, 12,
   11, 13, 6, 7, 14, 9, 13, 15, 14, 8, 13, 6, 5, 12, 7, 5,
   11, 12, 14, 15, 14, 15, 9, 8, 9, 14, 5, 6, 8, 6, 5, 12,
   9, 15, 5, 11, 6, 8, 13, 12, 5, 12, 13, 14, 11, 8, 5, 6]

def rightShifts : List UInt32 :=
  [8, 9, 9, 11, 13, 15, 15, 5, 7, 7, 8, 11, 14, 14, 12, 6,
   9, 13, 15, 7, 12, 8, 9, 11, 7, 7, 12, 7, 6, 15, 13, 11,
   9, 7, 15, 11, 8, 6, 6, 14, 12, 13, 5, 14, 13, 13, 7, 5,
   15, 5, 8, 11, 14, 14, 6, 14, 6, 9, 12, 9, 12, 5, 15, 8,
   8, 5, 12, 9, 12, 5, 14, 6, 8, 13, 6, 5, 15, 13, 11, 11]

structure State where
  a : UInt32
  b : UInt32
  c : UInt32
  d : UInt32
  e : UInt32
deriving DecidableEq, Repr

def initial : State := ⟨0x67452301, 0xefcdab89, 0x98badcfe, 0x10325476, 0xc3d2e1f0⟩

/-- The function of the `stage`-th sixteen rounds of the left line; the right line takes the same
    functions in opposite order. -/
def mix (stage : Nat) (x y z : UInt32) : UInt32 :=
  match stage with
  | 0 => x ^^^ y ^^^ z
  | 1 => (x &&& y) ||| (~~~x &&& z)
  | 2 => (x ||| ~~~y) ^^^ z
  | 3 => (x &&& z) ||| (y &&& ~~~z)
  | _ => x ^^^ (y ||| ~~~z)

def leftConstant : Nat → UInt32
  | 0 => 0
  | 1 => 0x5a827999
  | 2 => 0x6ed9eba1
  | 3 => 0x8f1bbcdc
  | _ => 0xa953fd4e

def rightConstant : Nat → UInt32
  | 0 => 0x50a28be6
  | 1 => 0x5c4dd124
  | 2 => 0x6d703ef3
  | 3 => 0x7a6d76e9
  | _ => 0

/-- One round: `term` is the function's value with word and constant added. -/
def round (s : State) (term shift : UInt32) : State :=
  ⟨s.e, rotateLeft (s.a + term) shift + s.e, s.b, rotateLeft s.c 10, s.d⟩

def leftLine (w : Array UInt32) (s : State) : State :=
  ((leftWords.zip leftShifts).foldl
    (fun (t, i) (word, shift) =>
      (round t (mix (i / 16) t.b t.c t.d + w.getD word 0 + leftConstant (i / 16)) shift, i + 1))
    (s, 0)).1

def rightLine (w : Array UInt32) (s : State) : State :=
  ((rightWords.zip rightShifts).foldl
    (fun (t, i) (word, shift) =>
      (round t (mix (4 - i / 16) t.b t.c t.d + w.getD word 0 + rightConstant (i / 16)) shift,
        i + 1))
    (s, 0)).1

def compress (s : State) (block : Octets) : State :=
  let w := (wordsLittle block).toArray
  let l := leftLine w s
  let r := rightLine w s
  ⟨s.b + l.c + r.d, s.c + l.d + r.e, s.d + l.e + r.a, s.e + l.a + r.b, s.a + l.b + r.c⟩

def State.words (s : State) : List UInt32 := [s.a, s.b, s.c, s.d, s.e]

def hash (message : Octets) : Octets :=
  wordOctets .little (absorb 64 compress initial (pad .little 64 8 message)).words

theorem length_hash (message : Octets) : (hash message).length = 20 := by
  simp [hash, length_wordOctets, State.words]

end CryptoIntrinsics.Digest.Ripemd160
