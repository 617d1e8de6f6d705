import Mathlib
import Settlement.Text.Hex

namespace Settlement.Hex

theorem digit?_digit {k : ℕ} (hk : k < 16) : digit? (digit k) = some k := by
  interval_cases k <;> decide

theorem encode_cons (b : UInt8) (bs : Bytes) : encode (b :: bs) = pair b ++ encode bs :=
  List.flatMap_cons

theorem encode_append (xs ys : Bytes) : encode (xs ++ ys) = encode xs ++ encode ys :=
  List.flatMap_append

theorem exists_of_mem_encode {bs : Bytes} {c : Char} (hc : c ∈ encode bs) : ∃ k < 16, c = digit k := by
  obtain ⟨b, -, hpair⟩ := List.mem_flatMap.mp hc
  have hb := b.toNat_lt
  simp only [pair, List.mem_cons, List.not_mem_nil, or_false] at hpair
  obtain rfl | rfl := hpair
  · exact ⟨_, by omega, rfl⟩
  · exact ⟨_, by omega, rfl⟩

theorem isDigit_of_mem_encode (bs : Bytes) : ∀ c ∈ encode bs, isDigit c = true := by
  intro c hc
  obtain ⟨k, hk, rfl⟩ := exists_of_mem_encode hc
  rw [isDigit, digit?_digit hk]
  rfl

theorem length_encode (bs : Bytes) : (encode bs).length = 2 * bs.length := by
  induction bs with
  | nil => rfl
  | cons b bs ih =>
    rw [encode_cons, List.length_append, ih, List.length_cons]
    simp only [pair, List.length_cons, List.length_nil]
    omega

theorem toLower_digit {k : ℕ} (hk : k < 16) : (digit k).toLower = digit k := by
  interval_cases k <;> decide

theorem toLower_toUpper_digit {k : ℕ} (hk : k < 16) : (digit k).toUpper.toLower = digit k := by
  interval_cases k <;> decide

theorem isUpper_digit {k : ℕ} (hk : k < 16) : (digit k).isUpper = false := by
  interval_cases k <;> decide

theorem digit_inj {j k : ℕ} (hj : j < 16) (hk : k < 16) (h : digit j = digit k) : j = k := by
  have hread := digit?_digit hj
  rw [h, digit?_digit hk] at hread
  exact (Option.some.inj hread).symm

theorem isUpper_iff {c : Char} : c.isUpper = true ↔ 65 ≤ c.toNat ∧ c.toNat ≤ 90 := by
  simp [Char.isUpper, UInt32.le_iff_toNat_le]

theorem digit?_eq_some_iff {c : Char} {k : ℕ} : digit? c = some k ↔ k < 16 ∧ c.toLower = digit k := by
  have hle (a b : Char) (hab : a ≤ b) : a.toNat ≤ b.toNat := hab
  constructor
  · intro h
    unfold digit? at h
    split at h
    · rename_i hc
      have hlow : 48 ≤ c.toNat := hle _ _ hc.1
      have hhigh : c.toNat ≤ 57 := hle _ _ hc.2
      obtain rfl := Option.some.inj h
      rw [Char.toLower_eq_of_not_isUpper (by rw [isUpper_iff]; omega), digit, if_pos (by omega),
        show 48 + (c.toNat - 48) = c.toNat by omega, Char.ofNat_toNat]
      exact ⟨by omega, rfl⟩
    · split at h
      · rename_i hc
        have hlow : 97 ≤ c.toNat := hle _ _ hc.1
        have hhigh : c.toNat ≤ 102 := hle _ _ hc.2
        obtain rfl := Option.some.inj h
        rw [Char.toLower_eq_of_not_isUpper (by rw [isUpper_iff]; omega), digit, if_neg (by omega),
          show 87 + (c.toNat - 87) = c.toNat by omega, Char.ofNat_toNat]
        exact ⟨by omega, rfl⟩
      · split at h
        · rename_i hc
          have hlow : 65 ≤ c.toNat := hle _ _ hc.1
          have hhigh : c.toNat ≤ 70 := hle _ _ hc.2
          obtain rfl := Option.some.inj h
          rw [Char.toLower_eq_of_isUpper (by rw [isUpper_iff]; omega), digit, if_neg (by omega),
            show 87 + (c.toNat - 55) = c.toNat + 32 by omega]
          exact ⟨by omega, rfl⟩
        · cases h
  · rintro ⟨hk, h⟩
    by_cases hupper : c.isUpper = true
    · have hc : c = (digit k).toUpper := by
        rw [← h, Char.toUpper_toLower_eq_toUpper, Char.toUpper_eq_of_not_isLower (Char.not_isLower_of_isUpper hupper)]
      rw [hc]
      clear hc h hupper
      interval_cases k <;> decide
    · rw [Char.toLower_eq_of_not_isUpper hupper] at h
      rw [h, digit?_digit hk]

theorem isDigit_of_toLower_mem_encode {bs : Bytes} {c : Char} (h : c.toLower ∈ encode bs) : isDigit c = true := by
  obtain ⟨k, hk, hdigit⟩ := exists_of_mem_encode h
  rw [isDigit, digit?_eq_some_iff.mpr ⟨hk, hdigit⟩]
  rfl

theorem toNat_of_isDigit {c : Char} (h : isDigit c = true) :
    48 ≤ c.toNat ∧ c.toNat ≤ 57 ∨ 65 ≤ c.toNat ∧ c.toNat ≤ 70 ∨ 97 ≤ c.toNat ∧ c.toNat ≤ 102 := by
  unfold isDigit digit? at h
  split_ifs at h with hdigit hlower hupper
  · exact .inl hdigit
  · exact .inr (.inr hlower)
  · exact .inr (.inl hupper)
  · cases h

theorem map_toLower_eq_encode_cons {a b : Char} {rest : List Char} {x : UInt8} {more : Bytes} :
    (a :: b :: rest).map Char.toLower = encode (x :: more) ↔
      digit? a = some (x.toNat / 16) ∧ digit? b = some (x.toNat % 16) ∧ rest.map Char.toLower = encode more := by
  have hx := x.toNat_lt
  have hhi : x.toNat / 16 < 16 := by omega
  have hlo : x.toNat % 16 < 16 := by omega
  simp [digit?_eq_some_iff, encode_cons, pair, hhi, hlo]

theorem toNat_ofNat_digits {hi lo : ℕ} (hhi : hi < 16) (hlo : lo < 16) :
    (UInt8.ofNat (hi * 16 + lo)).toNat = hi * 16 + lo := by
  rw [UInt8.toNat_ofNat']
  omega

theorem decodeOnto_eq_some_iff {acc : Bytes} {cs : List Char} {bs : Bytes} :
    decodeOnto acc cs = some bs ↔ ∃ more, bs = acc.reverse ++ more ∧ cs.map Char.toLower = encode more := by
  fun_induction decodeOnto acc cs with
  | case1 acc =>
    constructor
    · intro h
      exact ⟨[], by simpa using h.symm, rfl⟩
    · rintro ⟨more, rfl, hmore⟩
      cases more with
      | nil => simp
      | cons b more => cases hmore
  | case2 acc a b rest hi lo hlo hhi ih =>
    rw [ih]
    constructor
    · rintro ⟨more, rfl, hmore⟩
      have hval := toNat_ofNat_digits (digit?_eq_some_iff.mp hhi).1 (digit?_eq_some_iff.mp hlo).1
      have hlt := (digit?_eq_some_iff.mp hlo).1
      refine ⟨UInt8.ofNat (hi * 16 + lo) :: more, by simp, map_toLower_eq_encode_cons.mpr ⟨?_, ?_, hmore⟩⟩
      · rw [hhi, hval, show (hi * 16 + lo) / 16 = hi by omega]
      · rw [hlo, hval, show (hi * 16 + lo) % 16 = lo by omega]
    · rintro ⟨more, rfl, hmore⟩
      cases more with
      | nil => cases hmore
      | cons x more =>
        obtain ⟨ha, hb, hmore⟩ := map_toLower_eq_encode_cons.mp hmore
        obtain rfl := Option.some.inj (hhi.symm.trans ha)
        obtain rfl := Option.some.inj (hlo.symm.trans hb)
        have hbyte : UInt8.ofNat (x.toNat / 16 * 16 + x.toNat % 16) = x := by
          rw [Nat.div_add_mod', UInt8.ofNat_toNat]
        exact ⟨more, by simp [hbyte], hmore⟩
  | case3 acc a b rest hnone =>
    constructor
    · intro h
      cases h
    · rintro ⟨more, -, hmore⟩
      cases more with
      | nil => cases hmore
      | cons x more =>
        obtain ⟨ha, hb, -⟩ := map_toLower_eq_encode_cons.mp hmore
        exact absurd hb (hnone _ _ ha)
  | case4 acc c =>
    constructor
    · intro h
      cases h
    · rintro ⟨more, -, hmore⟩
      have hlen := congrArg List.length hmore
      rw [List.length_map, length_encode, List.length_singleton] at hlen
      omega

theorem decode?_eq_some_iff {cs : List Char} {bs : Bytes} :
    decode? cs = some bs ↔ cs.map Char.toLower = encode bs := by
  rw [decode?, decodeOnto_eq_some_iff]
  simp

end Settlement.Hex
