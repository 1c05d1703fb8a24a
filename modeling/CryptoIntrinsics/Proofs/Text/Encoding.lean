import CryptoIntrinsics.Octets

namespace CryptoIntrinsics.Octets

theorem ofText_nil : ofText (String.ofList []) = [] := by
  simp [ofText, String.toUTF8, String.ofList, List.utf8Encode]

theorem ofText_cons (c : Char) (text : List Char) :
    ofText (String.ofList (c :: text)) =
      String.utf8EncodeChar c ++ ofText (String.ofList text) := by
  simp [ofText, String.toUTF8, String.ofList, List.utf8Encode]

theorem utf8EncodeChar_of_lt {c : Char} (hascii : c.toNat < 128) :
    String.utf8EncodeChar c = [UInt8.ofNat c.toNat] := by
  have hcode : c.val.toNat ≤ 127 := Nat.le_of_lt_succ hascii
  simp only [String.utf8EncodeChar]
  rw [if_pos hcode]
  rfl

theorem exists_mem_utf8EncodeChar {c : Char} (hother : 128 ≤ c.toNat) :
    ∃ b ∈ String.utf8EncodeChar c, 128 ≤ b.toNat := by
  have hcode : ¬ c.val.toNat ≤ 127 := Nat.not_le.2 hother
  simp only [String.utf8EncodeChar]
  rw [if_neg hcode]
  -- However many bytes there are, the first one says so in its highest bits.
  split
  · refine ⟨_, List.mem_cons_self, ?_⟩
    rw [UInt8.toNat_ofNat']
    omega
  · split
    · refine ⟨_, List.mem_cons_self, ?_⟩
      rw [UInt8.toNat_ofNat']
      omega
    · refine ⟨_, List.mem_cons_self, ?_⟩
      rw [UInt8.toNat_ofNat']
      omega

theorem ofText_of_ascii {text : List Char} (hascii : ∀ c ∈ text, c.toNat < 128) :
    ofText (String.ofList text) = text.map fun c => UInt8.ofNat c.toNat := by
  induction text with
  | nil => exact ofText_nil
  | cons c text ih =>
    obtain ⟨hc, htext⟩ := List.forall_mem_cons.1 hascii
    rw [ofText_cons, utf8EncodeChar_of_lt hc, ih htext]
    rfl

/-- A text whose bytes are all of ASCII has no other characters. -/
theorem forall_lt_of_ofText {text : List Char}
    (hbytes : ∀ b ∈ ofText (String.ofList text), b.toNat < 128) : ∀ c ∈ text, c.toNat < 128 := by
  induction text with
  | nil => exact nofun
  | cons c text ih =>
    rw [ofText_cons, List.forall_mem_append] at hbytes
    refine List.forall_mem_cons.2 ⟨Nat.lt_of_not_le fun hother => ?_, ih hbytes.2⟩
    obtain ⟨b, hb, hlead⟩ := exists_mem_utf8EncodeChar hother
    have hlow := hbytes.1 b hb
    omega

end CryptoIntrinsics.Octets
