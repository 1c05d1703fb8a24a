import CryptoIntrinsics.Environment
import CryptoIntrinsics.Text.IntegerLiteral

namespace CryptoIntrinsics

structure Policy where
  fastEval : Bool
  maxInputBytes : Nat
  strictVarint : Bool
deriving DecidableEq, Repr

namespace Policy

def leastCap : Nat := 1024

def defaultCap : Nat := 1048576

def greatestCap : Nat := 67108864

/-- The text that sets something: of the current variable, or else of the older one. An empty or
    unreadable text of the current variable hides the older one too. -/
def setting? (env : Environment) (name : String) : Option String :=
  (env.get? ("CONTRACT_CRYPTO_" ++ name)).or (env.get? ("CC_" ++ name))

/-- A flag's text means yes when it is one of a few words, in any letter case. -/
def isYes (text : String) : Bool :=
  ["1", "true", "t", "yes", "y", "on"].contains
    (String.ofList ((Text.trim text.toList).map Char.toLower))

def clamp (n : Int) : Nat := max leastCap (min n.toNat greatestCap)

def flag (env : Environment) (name : String) (default : Bool) : Bool :=
  ((setting? env name).map isYes).getD default

/-- The cap on input as set; an unreadable text counts as not set. -/
def cap (env : Environment) : Nat :=
  match (setting? env "MAX_INPUT_BYTES").bind (Text.IntegerLiteral.read? ·.toList) with
  | some n => clamp n
  | none => defaultCap

def ofEnvironment (env : Environment) : Policy where
  fastEval := flag env "FAST_EVAL" false
  maxInputBytes := cap env
  strictVarint := flag env "STRICT_VARINT" true

theorem leastCap_le_clamp (n : Int) : leastCap ≤ clamp n := Nat.le_max_left _ _

theorem clamp_le_greatestCap (n : Int) : clamp n ≤ greatestCap :=
  Nat.max_le.2 ⟨by decide, Nat.min_le_right _ _⟩

end Policy

/-- The version of this library when neither the environment nor the installation names one. -/
def developmentVersion : String := "0.1.0+dev"

/-- The version that an environment names, else the installed one, else the development version. An
    empty text names none, nor does the installed placeholder `0.0.0`. -/
def release (env : Environment) (installed : Option String) : String :=
  let named := (env.get? "CONTRACT_CRYPTO_VERSION").filter (!·.isEmpty)
  let known := installed.filter fun version => !version.isEmpty && version != "0.0.0"
  (named.or known).getD developmentVersion

end CryptoIntrinsics
