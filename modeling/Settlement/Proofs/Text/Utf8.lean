import Mathlib
import Settlement.Bytes

/-!
Text in UTF-8. Bytes below 128 are characters of their own, so that the text in front of one and the text
behind it are text again.
-/

namespace Settlement.Bytes

def IsUtf8 (bs : Bytes) : Prop :=
  ∃ cs : List Char, bs = cs.flatMap String.utf8EncodeChar

theorem isUtf8_nil : IsUtf8 [] := ⟨[], rfl⟩

theorem IsUtf8.append {xs ys : Bytes} (hx : IsUtf8 xs) (hy : IsUtf8 ys) : IsUtf8 (xs ++ ys) := by
  obtain ⟨cs, rfl⟩ := hx
  obtain ⟨ds, rfl⟩ := hy
  exact ⟨cs ++ ds, List.flatMap_append.symm⟩

theorem isUtf8_encodeChar (c : Char) : IsUtf8 (String.utf8EncodeChar c) := ⟨[c], by simp⟩

theorem encodeChar_cases (c : Char) :
    (∃ b, String.utf8EncodeChar c = [b]) ∨ ∀ b ∈ String.utf8EncodeChar c, 128 ≤ b.toNat := by
  have hvalid : c.val.toNat < 0x110000 := by
    have h := c.valid
    simp only [UInt32.isValidChar, Nat.isValidChar] at h
    omega
  fun_cases String.utf8EncodeChar c
  · exact .inl ⟨_, rfl⟩
  all_goals
    right
    simp only [List.forall_mem_cons, List.not_mem_nil, false_imp_iff, implies_true, and_true, UInt8.toNat_ofNat']
    omega

theorem encodeChar_ofNat {n : ℕ} (hn : n < 128) : String.utf8EncodeChar (Char.ofNat n) = [UInt8.ofNat n] := by
  have hvalid : n.isValidChar := .inl (by omega)
  have hval : (Char.ofNat n).val.toNat = n := (Char.toNat_ofNat n).trans (if_pos hvalid)
  rw [String.utf8EncodeChar, hval, if_pos (by omega)]

theorem isUtf8_singleton {b : UInt8} (hb : b.toNat < 128) : IsUtf8 [b] := by
  have h := isUtf8_encodeChar (Char.ofNat b.toNat)
  rwa [encodeChar_ofNat hb, UInt8.ofNat_toNat] at h

theorem IsUtf8.split {xs ys : Bytes} {b : UInt8} (hb : b.toNat < 128) (h : IsUtf8 (xs ++ b :: ys)) :
    IsUtf8 xs ∧ IsUtf8 ys := by
  obtain ⟨cs, hcs⟩ := h
  induction cs generalizing xs with
  | nil => simp at hcs
  | cons c cs ih =>
    rw [List.flatMap_cons, List.append_eq_append_iff] at hcs
    obtain ⟨as, hc, htail⟩ | ⟨as, rfl, htail⟩ := hcs
    · cases as with
      | nil =>
        rw [List.append_nil] at hc
        have hnil : [] ++ b :: ys = cs.flatMap String.utf8EncodeChar := htail
        exact ⟨hc ▸ isUtf8_encodeChar c, (ih hnil).2⟩
      | cons a as =>
        -- the byte belongs to the character, which has no other
        obtain ⟨rfl, rfl⟩ := List.cons.inj htail
        obtain ⟨b', hb'⟩ | hlarge := encodeChar_cases c
        · rw [hb', List.singleton_eq_append_iff] at hc
          obtain ⟨rfl, hbas⟩ | ⟨-, hnil⟩ := hc
          · obtain ⟨-, rfl⟩ := List.cons.inj hbas
            exact ⟨isUtf8_nil, cs, rfl⟩
          · cases hnil
        · have hmem := hlarge b (by simp [hc])
          omega
    · obtain ⟨hxs, hys⟩ := ih htail.symm
      exact ⟨(isUtf8_encodeChar c).append hxs, hys⟩

theorem IsUtf8.tail {b : UInt8} {bs : Bytes} (hb : b.toNat < 128) (h : IsUtf8 (b :: bs)) : IsUtf8 bs := by
  rw [← List.nil_append (b :: bs)] at h
  exact (h.split hb).2

theorem IsUtf8.of_append {xs ys : Bytes} (hxs : ∀ b ∈ xs, b.toNat < 128) (h : IsUtf8 (xs ++ ys)) : IsUtf8 ys := by
  induction xs with
  | nil => exact h
  | cons b xs ih =>
    rw [List.forall_mem_cons] at hxs
    exact ih hxs.2 (IsUtf8.tail hxs.1 h)

theorem IsUtf8.dropWhile {p : UInt8 → Bool} (hp : ∀ b, p b = true → b.toNat < 128) {bs : Bytes} (h : IsUtf8 bs) :
    IsUtf8 (bs.dropWhile p) := by
  rw [← List.takeWhile_append_dropWhile (p := p) (l := bs)] at h
  exact h.of_append fun b hb => hp b (List.mem_takeWhile_imp hb)

theorem IsUtf8.exists_text {bs : Bytes} (h : IsUtf8 bs) : ∃ s, String.fromUTF8? ⟨bs.toArray⟩ = some s := by
  obtain ⟨cs, rfl⟩ := h
  have hvalid : ByteArray.IsValidUTF8 ⟨(cs.flatMap String.utf8EncodeChar).toArray⟩ := by
    refine ⟨cs, ?_⟩
    rw [List.utf8Encode, ByteArray.ext_iff, List.data_toByteArray]
  exact ⟨_, dif_pos hvalid⟩

theorem toList_loop (bs : ByteArray) (i : ℕ) (acc : List UInt8) :
    ByteArray.toList.loop bs i acc = acc.reverse ++ bs.data.toList.drop i := by
  fun_induction ByteArray.toList.loop bs i acc with
  | case1 i acc hlt ih =>
    have hi : i < bs.data.toList.length := by simpa using hlt
    rw [ih, List.drop_eq_getElem_cons hi]
    simp [ByteArray.get!, hlt]
  | case2 i acc hle =>
    rw [List.drop_eq_nil_of_le (by simpa using hle), List.append_nil]

theorem ofString_ofList (cs : List Char) : ofString (String.ofList cs) = cs.flatMap String.utf8EncodeChar := by
  have hbytes : (String.ofList cs).toUTF8 = (cs.flatMap String.utf8EncodeChar).toByteArray := rfl
  rw [ofString, hbytes, ByteArray.toList, toList_loop, List.data_toByteArray]
  rfl

theorem ofString_eq (s : String) : ofString s = s.toList.flatMap String.utf8EncodeChar := by
  rw [← ofString_ofList, String.ofList_toList]

theorem ofString_of_ascii {s : String} (h : ∀ c ∈ s.toList, c.toNat < 128) :
    ofString s = s.toList.map fun c => UInt8.ofNat c.toNat := by
  rw [ofString_eq, List.map_eq_flatMap]
  apply List.flatMap_congr
  intro c hc
  rw [← encodeChar_ofNat (h c hc), Char.ofNat_toNat]

theorem lt_of_mem_ofString {s : String} (h : ∀ c ∈ s.toList, c.toNat < 128) : ∀ b ∈ ofString s, b.toNat < 128 := by
  rw [ofString_of_ascii h, List.forall_mem_map]
  intro c hc
  have hlt := h c hc
  rw [UInt8.toNat_ofNat']
  omega

theorem isUtf8_iff (bs : Bytes) : IsUtf8 bs ↔ ∃ s, bs = ofString s := by
  constructor
  · rintro ⟨cs, rfl⟩
    exact ⟨String.ofList cs, (ofString_ofList cs).symm⟩
  · rintro ⟨s, rfl⟩
    refine ⟨s.toList, ?_⟩
    rw [← ofString_ofList, String.ofList_toList]

end Settlement.Bytes
