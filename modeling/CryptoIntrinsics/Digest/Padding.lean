import CryptoIntrinsics.Octets

namespace CryptoIntrinsics.Digest

/-- Which end of a number comes first in its bytes. -/
inductive ByteOrder where
  | big
  | little
deriving DecidableEq, Repr

def ByteOrder.octets (order : ByteOrder) (width n : Nat) : Octets :=
  match order with
  | .big => Octets.ofNat width n
  | .little => Octets.ofNatLittle width n

/-- The message, a one bit, zero bits, and the message's length in bits as a number of
    `lengthSize` bytes, as few zero bits as fill whole blocks. -/
def pad (order : ByteOrder) (blockSize lengthSize : Nat) (message : Octets) : Octets :=
  let used := (message.length + 1 + lengthSize) % blockSize
  let zeros := (blockSize - used) % blockSize
  message ++ 0x80 :: (List.replicate zeros 0 ++ order.octets lengthSize (8 * message.length))

/-- Folds a step over the first `count` blocks of a padded message. -/
def foldBlocks {State : Type} (blockSize : Nat) (step : State → Octets → State) :
    (count : Nat) → State → Octets → State
  | 0, state, _ => state
  | count + 1, state, bytes =>
    foldBlocks blockSize step count (step state (bytes.take blockSize)) (bytes.drop blockSize)

def absorb {State : Type} (blockSize : Nat) (step : State → Octets → State) (start : State)
    (padded : Octets) : State :=
  foldBlocks blockSize step (padded.length / blockSize) start padded

/-- The 32-bit words of a block, each with its first byte on top. -/
def wordsBig : Octets → List UInt32
  | a :: b :: c :: d :: rest =>
    (a.toUInt32 <<< 24 ||| b.toUInt32 <<< 16 ||| c.toUInt32 <<< 8 ||| d.toUInt32) :: wordsBig rest
  | _ => []

def wordsLittle : Octets → List UInt32
  | a :: b :: c :: d :: rest =>
    (d.toUInt32 <<< 24 ||| c.toUInt32 <<< 16 ||| b.toUInt32 <<< 8 ||| a.toUInt32) ::
      wordsLittle rest
  | _ => []

def rotateLeft (x n : UInt32) : UInt32 := x <<< n ||| x >>> (32 - n)

def rotateRight (x n : UInt32) : UInt32 := x >>> n ||| x <<< (32 - n)

def wordOctets (order : ByteOrder) (words : List UInt32) : Octets :=
  words.flatMap fun w => order.octets 4 w.toNat

theorem length_wordOctets (order : ByteOrder) (words : List UInt32) :
    (wordOctets order words).length = 4 * words.length := by
  induction words with
  | nil => rfl
  | cons w words ih =>
    have hword : (order.octets 4 w.toNat).length = 4 := by cases order <;> simp [ByteOrder.octets]
    simp only [wordOctets, List.flatMap_cons, List.length_append, List.length_cons] at ih ⊢
    omega

end CryptoIntrinsics.Digest
