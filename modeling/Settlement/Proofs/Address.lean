import Mathlib
import Settlement.Address
import Settlement.Proofs.Bytes
import Settlement.Proofs.Text.Hex

/-!
Text of addresses. Each address has one text with a checksum, and it is read as the same address by every reader.
-/

namespace Settlement.Address

/-- The digits of an address behind `0x`, of which a letter is a capital just if the top bit of the half byte in its
place is set in the hash of the lower-case digits. -/
def IsChecksummed (s : String) : Prop :=
  ∃ ds, s.toList = '0' :: 'x' :: ds ∧ ds.length = 40 ∧ (∀ c ∈ ds, Hex.isDigit c = true) ∧
    ∀ i c, ds[i]? = some c → c.isAlpha = true → (c.isUpper = true ↔
      ((keccak256 (ds.map fun c => UInt8.ofNat c.toLower.toNat)).getD (i / 2) 0).toNat.testBit (7 - 4 * (i % 2)) = true)

def Spells (s : String) (a : Address) : Prop :=
  (Hex.dropMarker s.toList).map Char.toLower = Hex.encode a.bytes

theorem ext_bytes {a b : Address} (h : a.bytes = b.bytes) : a = b := by
  cases a
  cases b
  simpa using h

theorem ofBytes?_eq_some_iff {bs : Bytes} {a : Address} : ofBytes? bs = some a ↔ bs = a.bytes := by
  unfold ofBytes?
  split
  · rw [Option.some_inj]
    constructor
    · rintro rfl
      rfl
    · intro h
      exact ext_bytes h
  · rename_i hlen
    refine iff_of_false (by simp) ?_
    rintro rfl
    exact hlen a.length_eq

theorem parse?_eq_some_iff {s : String} {a : Address} : parse? s = some a ↔ Spells s a := by
  rw [Spells, ← Hex.decode?_eq_some_iff, parse?, Option.bind_eq_some_iff]
  simp only [ofBytes?_eq_some_iff, exists_eq_right]

theorem length_nibbles (bs : Bytes) : (nibbles bs).length = 2 * bs.length := by
  induction bs with
  | nil => rfl
  | cons b bs ih =>
    rw [nibbles, List.flatMap_cons, List.length_append, ← nibbles, ih]
    simp only [List.length_cons, List.length_nil]
    omega

theorem getElem?_nibbles (bs : Bytes) (i : ℕ) :
    (nibbles bs)[i]? = bs[i / 2]?.map fun b => if i % 2 = 0 then b.toNat / 16 else b.toNat % 16 := by
  induction bs generalizing i with
  | nil => rfl
  | cons b bs ih =>
    have hcons : nibbles (b :: bs) = b.toNat / 16 :: b.toNat % 16 :: nibbles bs := rfl
    rw [hcons]
    match i with
    | 0 => rfl
    | 1 => rfl
    | i + 2 =>
      rw [List.getElem?_cons_succ, List.getElem?_cons_succ, ih, Nat.add_div_right i (by decide),
        List.getElem?_cons_succ, Nat.add_mod_right]

theorem eight_le_nibble_iff (b : UInt8) (i : ℕ) :
    8 ≤ (if i % 2 = 0 then b.toNat / 16 else b.toNat % 16) ↔ b.toNat.testBit (7 - 4 * (i % 2)) = true := by
  have hb := b.toNat_lt
  rw [Nat.testBit_eq_decide_div_mod_eq, decide_eq_true_eq]
  obtain hi | hi := Nat.mod_two_eq_zero_or_one i
  · rw [hi, if_pos rfl, show 2 ^ (7 - 4 * 0) = 128 by decide]
    omega
  · rw [hi, if_neg (by decide), show 2 ^ (7 - 4 * 1) = 8 by decide]
    omega

section Case

variable (a : Address)

def hashNibbles : List ℕ :=
  nibbles (keccak256 ((Hex.encode a.bytes).map fun c => UInt8.ofNat c.toNat))

def mixedDigits : List Char :=
  mixCase (Hex.encode a.bytes)

theorem toList_checksum : a.checksum.toList = '0' :: 'x' :: a.mixedDigits := by
  rw [checksum, String.toList_ofList, mixedDigits]

theorem length_digits : (Hex.encode a.bytes).length = 40 := by
  rw [Hex.length_encode, a.length_eq]

theorem length_hashNibbles : a.hashNibbles.length = 64 := by
  rw [hashNibbles, length_nibbles, length_keccak256]

theorem length_mixedDigits : a.mixedDigits.length = 40 := by
  rw [mixedDigits, mixCase, ← hashNibbles, List.length_zipWith, length_digits, length_hashNibbles]
  rfl

theorem exists_of_mixedDigits {i : ℕ} {c : Char} (h : a.mixedDigits[i]? = some c) :
    ∃ k < 16, ∃ n, (Hex.encode a.bytes)[i]? = some (Hex.digit k) ∧ a.hashNibbles[i]? = some n ∧
      c = if 8 ≤ n then (Hex.digit k).toUpper else Hex.digit k := by
  rw [mixedDigits, mixCase, ← hashNibbles, List.getElem?_zipWith_eq_some] at h
  obtain ⟨d, n, hd, hn, rfl⟩ := h
  obtain ⟨k, hk, rfl⟩ := Hex.exists_of_mem_encode (List.mem_of_getElem? hd)
  exact ⟨k, hk, n, hd, hn, rfl⟩

theorem toLower_mixedDigits : a.mixedDigits.map Char.toLower = Hex.encode a.bytes := by
  apply List.ext_getElem?
  intro i
  rw [List.getElem?_map]
  cases hc : a.mixedDigits[i]? with
  | none =>
    rw [List.getElem?_eq_none_iff, length_mixedDigits, ← length_digits a, ← List.getElem?_eq_none_iff] at hc
    rw [hc]
    rfl
  | some c =>
    obtain ⟨k, hk, n, hd, -, rfl⟩ := exists_of_mixedDigits a hc
    rw [hd, Option.map_some]
    split
    · rw [Hex.toLower_toUpper_digit hk]
    · rw [Hex.toLower_digit hk]

theorem spells_checksum : Spells a.checksum a := by
  rw [Spells, toList_checksum]
  exact toLower_mixedDigits a

theorem parse?_checksum : parse? a.checksum = some a :=
  parse?_eq_some_iff.mpr (spells_checksum a)

theorem checksum_inj {a b : Address} (h : a.checksum = b.checksum) : a = b := by
  have hparse := parse?_checksum a
  rw [h, parse?_checksum] at hparse
  exact (Option.some.inj hparse).symm

theorem isDigit_of_mem_mixedDigits : ∀ c ∈ a.mixedDigits, Hex.isDigit c = true := by
  intro c hc
  have hlower : c.toLower ∈ Hex.encode a.bytes := by
    rw [← toLower_mixedDigits]
    exact List.mem_map_of_mem hc
  exact Hex.isDigit_of_toLower_mem_encode hlower

theorem isChecksummed_checksum : IsChecksummed a.checksum := by
  refine ⟨a.mixedDigits, toList_checksum a, length_mixedDigits a, isDigit_of_mem_mixedDigits a, ?_⟩
  intro i c hc halpha
  have hhash : a.mixedDigits.map (fun c => UInt8.ofNat c.toLower.toNat) =
      (Hex.encode a.bytes).map fun c => UInt8.ofNat c.toNat := by
    rw [← toLower_mixedDigits, List.map_map]
    rfl
  obtain ⟨k, hk, n, -, hn, rfl⟩ := exists_of_mixedDigits a hc
  rw [hashNibbles, getElem?_nibbles, Option.map_eq_some_iff] at hn
  obtain ⟨b, hb, rfl⟩ := hn
  rw [hhash, List.getD_eq_getElem?_getD, hb, Option.getD_some, ← eight_le_nibble_iff]
  generalize (if i % 2 = 0 then b.toNat / 16 else b.toNat % 16) = n at halpha ⊢
  split
  · rename_i hn
    rw [if_pos hn, Char.isAlpha_toUpper_eq_isAlpha] at halpha
    simp [hn, halpha]
  · rename_i hn
    simp [hn, Hex.isUpper_digit hk]

theorem checksum_eq_iff {s t : String} {a b : Address} (hs : Spells s a) (ht : Spells t b) :
    a.checksum = b.checksum ↔
      (Hex.dropMarker s.toList).map Char.toLower = (Hex.dropMarker t.toList).map Char.toLower := by
  rw [hs, ht]
  constructor
  · intro h
    rw [checksum_inj h]
  · intro h
    obtain rfl : a = b := Option.some.inj
      ((parse?_eq_some_iff.mpr hs).symm.trans (parse?_eq_some_iff.mpr (hs.trans h)))
    rfl

end Case

section Texts

variable {s : String} {a : Address}

def Mixed (s : String) : Prop :=
  (∃ c ∈ Hex.dropMarker s.toList, c.isLower = true) ∧ ∃ c ∈ Hex.dropMarker s.toList, c.isUpper = true

theorem isMixed_iff : isMixed (Hex.dropMarker s.toList) = true ↔ Mixed s := by
  simp [isMixed, Mixed]

variable [Platform]

/-- The text spells the address, and where checksums are verified and letters of both cases stand in it, it is the text
with the checksum. -/
def Reads (s : String) (a : Address) : Prop :=
  Spells s a ∧ (Platform.checksums = true → Mixed s → s = a.checksum)

theorem reads_checksum (a : Address) : Reads a.checksum a :=
  ⟨spells_checksum a, fun _ _ => rfl⟩

theorem ofText_eq_ok {ε : Type} {refused : ε} : ofText refused s = .ok a ↔ Reads s a := by
  rw [Reads, ← parse?_eq_some_iff, ← isMixed_iff, ofText]
  cases parse? s with
  | none => simp
  | some b =>
    simp only [Option.some.injEq]
    split
    · rename_i h
      simp only [Bool.and_eq_true, bne_iff_ne] at h
      refine iff_of_false nofun ?_
      rintro ⟨rfl, hsame⟩
      exact h.2 (hsame h.1.1 h.1.2)
    · rename_i h
      simp only [Bool.and_eq_true, bne_iff_ne, not_and, not_not] at h
      constructor
      · intro heq
        obtain rfl := Except.ok.inj heq
        exact ⟨rfl, fun hchecked hmixed => h ⟨hchecked, hmixed⟩⟩
      · rintro ⟨rfl, -⟩
        rfl

end Texts

section Values

/-- The values that callers may hand over for an address. -/
def Denotes : Value → Address → Prop
  | .text s, a => Spells s a
  | .bytes bs, a => bs = a.bytes
  | .int n, a => 0 ≤ n ∧ Spells (Hex.ofNat n.toNat) a
  | _, _ => False

variable {v : Value} {a b : Address}

theorem orFormat_eq_ok {o : Option Address} : orFormat o = .ok a ↔ o = some a := by
  cases o <;> simp [orFormat]

theorem ofValue_eq_ok : ofValue v = .ok a ↔ Denotes v a := by
  cases v with
  | text s => rw [ofValue, orFormat_eq_ok, parse?_eq_some_iff, Denotes]
  | bytes bs => rw [ofValue, orFormat_eq_ok, ofBytes?_eq_some_iff, Denotes]
  | int n =>
    rw [ofValue, orFormat_eq_ok, Denotes]
    by_cases hn : 0 ≤ n
    · rw [if_pos hn, parse?_eq_some_iff, and_iff_right hn]
    · rw [if_neg hn]
      exact iff_of_false (by simp) fun h => hn h.1
  | _ => simp [ofValue, Denotes]

theorem denotes_checksum (a : Address) : Denotes (.text a.checksum) a := spells_checksum a

theorem denotes_bytes (a : Address) : Denotes (.bytes a.bytes) a := rfl

theorem toNat_lt (a : Address) : a.toNat < 256 ^ 20 := by
  have h := Bytes.toNat_lt a.bytes
  rwa [a.length_eq] at h

theorem toNat_inj (h : a.toNat = b.toNat) : a = b := by
  apply ext_bytes
  rw [← Bytes.ofNat_toNat a.bytes, ← Bytes.ofNat_toNat b.bytes, a.length_eq, b.length_eq]
  exact congrArg (Bytes.ofNat 20) h

theorem bytes_ofHash {hash : Bytes} (h : hash.length = 32) : (ofHash hash).bytes = hash.drop 12 := by
  have hdrop : Bytes.ofNat 20 hash.toNat = hash.drop (hash.length - 20) := Bytes.ofNat_toNat_of_le (by omega)
  rw [h] at hdrop
  exact hdrop

def wide (a : Address) : Bytes := Bytes.padLeft 32 a.bytes

@[simp]
theorem length_wide (a : Address) : a.wide.length = 32 := by
  rw [wide, Bytes.padLeft, Bytes.zeros, List.length_append, List.length_replicate, a.length_eq]

theorem wide_inj (h : a.wide = b.wide) : a = b := by
  apply ext_bytes
  rw [wide, wide, Bytes.padLeft, Bytes.padLeft, a.length_eq, b.length_eq] at h
  exact List.append_cancel_left h

end Values

end Settlement.Address
