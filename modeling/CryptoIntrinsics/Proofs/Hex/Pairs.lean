import CryptoIntrinsics.Hex

namespace CryptoIntrinsics.Hex

/-- A byte is the digit of a value, as it is printed or in upper case. -/
def IsDigit (b : UInt8) (value : Nat) : Prop :=
  value < 16 ∧ (b.toNat = (digit value).toNat ∨ b.toNat = (digit value).toUpper.toNat)

instance (b : UInt8) (value : Nat) : Decidable (IsDigit b value) :=
  inferInstanceAs (Decidable (_ ∧ _))

/-- A text of digit pairs, and the bytes that it writes. -/
inductive Writes : Octets → Octets → Prop where
  | nil : Writes [] []
  | pair {high low : UInt8} {h l : Nat} {text bytes : Octets} (hhigh : IsDigit high h)
      (hlow : IsDigit low l) (hrest : Writes text bytes) :
      Writes (high :: low :: text) (join h l :: bytes)

theorem toNat_digit : ∀ value < 16,
    (digit value).toNat = (if value < 10 then 48 + value else 87 + value) ∧
      (digit value).toUpper.toNat = (if value < 10 then 48 + value else 55 + value) := by
  decide

theorem nibble?_code_eq_some_iff {code value : Nat} :
    nibble? code = some value ↔
      value < 16 ∧ (code = (digit value).toNat ∨ code = (digit value).toUpper.toNat) := by
  rw [nibble?]
  constructor
  · intro hvalue
    have hlt : value < 16 := by grind
    obtain ⟨hlower, hupper⟩ := toNat_digit value hlt
    rw [hlower, hupper]
    grind
  · rintro ⟨hlt, hdigit⟩
    obtain ⟨hlower, hupper⟩ := toNat_digit value hlt
    rw [hlower, hupper] at hdigit
    grind

theorem nibble?_eq_some_iff {b : UInt8} {value : Nat} :
    nibble? b.toNat = some value ↔ IsDigit b value := nibble?_code_eq_some_iff

theorem pairs?_eq_some_iff {seen all : Octets} : ∀ {text : Octets},
    pairs? seen (text.map (·.toNat)) = some all ↔
      ∃ bytes, all = seen.reverse ++ bytes ∧ Writes text bytes
  | [] => by
    constructor
    · rintro hall
      cases hall
      exact ⟨[], (List.append_nil _).symm, .nil⟩
    · rintro ⟨bytes, rfl, hwrites⟩
      cases hwrites
      rw [List.append_nil]
      rfl
  | [lone] => by
    constructor
    · nofun
    · rintro ⟨bytes, -, hwrites⟩
      cases hwrites
  | high :: low :: text => by
    simp only [List.map_cons, pairs?]
    constructor
    · intro hall
      split at hall
      · next h l hhigh hlow =>
        obtain ⟨bytes, rfl, hwrites⟩ := pairs?_eq_some_iff.1 hall
        refine ⟨join h l :: bytes, ?_, ?_⟩
        · rw [List.reverse_cons, List.append_assoc, List.singleton_append]
        · exact .pair (nibble?_eq_some_iff.1 hhigh) (nibble?_eq_some_iff.1 hlow) hwrites
      · cases hall
    · rintro ⟨bytes, rfl, hwrites⟩
      cases hwrites with
      | pair hhigh hlow hrest =>
        rw [nibble?_eq_some_iff.2 hhigh, nibble?_eq_some_iff.2 hlow]
        dsimp only
        rw [pairs?_eq_some_iff]
        refine ⟨_, ?_, hrest⟩
        rw [List.reverse_cons, List.append_assoc, List.singleton_append]

theorem Writes.length_eq {text bytes : Octets} (hwrites : Writes text bytes) :
    text.length = 2 * bytes.length := by
  induction hwrites with
  | nil => rfl
  | pair hhigh hlow hrest ih =>
    rw [List.length_cons, List.length_cons, List.length_cons, ih]
    omega

/-- The strict reader takes digit pairs for the bytes that they write, and nothing else. -/
theorem decode_eq_ok_iff {text bytes : Octets} : decode text = .ok bytes ↔ Writes text bytes := by
  rw [decode]
  constructor
  · intro hdecode
    split at hdecode
    · cases hdecode
    · split at hdecode
      · next all hall =>
        cases hdecode
        obtain ⟨written, rfl, hwrites⟩ := pairs?_eq_some_iff.1 hall
        exact hwrites
      · cases hdecode
  · intro hwrites
    have hlength := hwrites.length_eq
    rw [if_neg (by omega), pairs?_eq_some_iff.2 ⟨bytes, rfl, hwrites⟩]
    rfl

/-- Digit pairs are texts of an even length in which every byte is a digit. -/
theorem exists_writes_iff : ∀ {text : Octets},
    (∃ bytes, Writes text bytes) ↔ text.length % 2 = 0 ∧ ∀ b ∈ text, ∃ value, IsDigit b value
  | [] => ⟨fun _ => ⟨rfl, nofun⟩, fun _ => ⟨[], .nil⟩⟩
  | [lone] => by
    constructor
    · rintro ⟨bytes, hwrites⟩
      cases hwrites
    · rintro ⟨heven, -⟩
      cases heven
  | high :: low :: text => by
    rw [List.forall_mem_cons, List.forall_mem_cons]
    constructor
    · rintro ⟨bytes, hwrites⟩
      cases hwrites with
      | pair hhigh hlow hrest =>
        obtain ⟨heven, hdigits⟩ := exists_writes_iff.1 ⟨_, hrest⟩
        exact ⟨(Nat.add_mod_right text.length 2).trans heven, ⟨_, hhigh⟩, ⟨_, hlow⟩, hdigits⟩
    · rintro ⟨heven, ⟨h, hhigh⟩, ⟨l, hlow⟩, hdigits⟩
      have hrest : text.length % 2 = 0 := (Nat.add_mod_right text.length 2).symm.trans heven
      obtain ⟨bytes, hwrites⟩ := exists_writes_iff.2 ⟨hrest, hdigits⟩
      exact ⟨join h l :: bytes, .pair hhigh hlow hwrites⟩

/-- At least one digit pair. -/
structure IsProper (text : Octets) : Prop where
  ne_nil : text ≠ []
  even : text.length % 2 = 0
  digits : ∀ b ∈ text, ∃ value, IsDigit b value

theorem isProper_iff {text : Octets} : IsProper text ↔ text ≠ [] ∧ ∃ bytes, Writes text bytes := by
  rw [exists_writes_iff]
  exact ⟨fun ⟨hsome, heven, hdigits⟩ => ⟨hsome, heven, hdigits⟩,
    fun ⟨hsome, heven, hdigits⟩ => ⟨hsome, heven, hdigits⟩⟩

theorem Writes.unique {text bytes other : Octets} (hwrites : Writes text bytes)
    (hother : Writes text other) : bytes = other := by
  have hdecode := decode_eq_ok_iff.2 hwrites
  rw [decode_eq_ok_iff.2 hother] at hdecode
  exact (Except.ok.inj hdecode).symm

end CryptoIntrinsics.Hex
