import Mathlib
import Settlement.Key.Document
import Settlement.Proofs.Bytes
import Settlement.Proofs.Text.Hex

namespace Settlement

theorem Text.trim_of_blank {blank : Char → Bool} {left body right : List Char} (hleft : ∀ c ∈ left, blank c = true)
    (hright : ∀ c ∈ right, blank c = true) (hbody : ∀ c ∈ body, blank c = false) :
    trim blank (left ++ body ++ right) = body := by
  have hkept (cs tail : List Char) (hcs : cs ≠ []) (hblank : ∀ c ∈ cs, blank c = false) :
      (cs ++ tail).dropWhile blank = cs ++ tail := by
    obtain ⟨c, cs, rfl⟩ := List.exists_cons_of_ne_nil hcs
    rw [List.cons_append, List.dropWhile_cons_of_neg]
    simp [hblank c (List.mem_cons_self ..)]
  have hright' : ∀ c ∈ right.reverse, blank c = true := by simpa using hright
  rw [trim, List.append_assoc, List.dropWhile_append_of_pos hleft]
  by_cases hempty : body = []
  · subst hempty
    rw [List.nil_append, List.dropWhile_eq_nil_iff.mpr hright]
    rfl
  · have hreverse : ∀ c ∈ body.reverse, blank c = false := by simpa using hbody
    have hbehind := hkept body.reverse [] (by simpa using hempty) hreverse
    rw [List.append_nil] at hbehind
    rw [hkept body right hempty hbody, List.reverse_append, List.dropWhile_append_of_pos hright', hbehind,
      List.reverse_reverse]

theorem foldl_eq_ofDigits (b : ℕ) (ds : List ℕ) : ds.foldl (fun n d => n * b + d) 0 = Nat.ofDigits b ds.reverse := by
  induction ds using List.reverseRecOn with
  | nil => rfl
  | append_singleton ds d ih =>
    rw [List.foldl_append, ih, List.reverse_append, List.reverse_singleton, List.singleton_append,
      Nat.ofDigits_cons, mul_comm, add_comm]
    rfl

namespace Hex

def denoted (cs : List Char) : ℕ :=
  Nat.ofDigits 16 (cs.map fun c => (digit? c).getD 0).reverse

theorem toNat?_append_singleton (cs : List Char) (c : Char) :
    toNat? (cs ++ [c]) = (toNat? cs).bind fun n => (digit? c).map fun k => n * 16 + k := by
  rw [toNat?, List.foldl_append]
  simp only [List.foldl_cons, List.foldl_nil, Option.bind_eq_bind, Option.pure_def, toNat?]
  congr 1
  funext n
  cases digit? c <;> rfl

theorem toNat?_eq {cs : List Char} (hcs : ∀ c ∈ cs, isDigit c = true) : toNat? cs = some (denoted cs) := by
  rw [denoted, ← foldl_eq_ofDigits]
  induction cs using List.reverseRecOn with
  | nil => rfl
  | append_singleton cs c ih =>
    obtain ⟨hcs, hc⟩ := List.forall_mem_append.mp hcs
    obtain ⟨k, hk⟩ := Option.isSome_iff_exists.mp (hc c (List.mem_singleton_self c))
    rw [toNat?_append_singleton, ih hcs, hk, List.map_append, List.foldl_append]
    simp [hk]

theorem denoted_encode (bs : Bytes) : denoted (encode bs) = Bytes.toNat bs := by
  rw [denoted, ← foldl_eq_ofDigits]
  induction bs using List.reverseRecOn with
  | nil => rfl
  | append_singleton bs b ih =>
    have hb := b.toNat_lt
    have hpair : encode [b] = [digit (b.toNat / 16), digit (b.toNat % 16)] := rfl
    rw [encode_append, List.map_append, List.foldl_append, ih, Bytes.toNat_append_singleton, hpair]
    simp only [List.map_cons, List.map_nil, List.foldl_cons, List.foldl_nil, Option.getD_some,
      digit?_digit (show b.toNat / 16 < 16 by omega), digit?_digit (show b.toNat % 16 < 16 by omega)]
    omega

end Hex

namespace Word

def decimalDenoted (cs : List Char) : ℕ :=
  Nat.ofDigits 10 (cs.map fun c => c.toNat - 48).reverse

def Pads (s : String) (body : List Char) : Prop :=
  ∃ left right, s.toList = left ++ body ++ right ∧ (∀ c ∈ left, Text.isBlank c = true) ∧
    ∀ c ∈ right, Text.isBlank c = true

inductive Spells : WrittenWord → ℤ → Prop
  | integer (n : ℤ) : Spells (.inl n) n
  | hex {s : String} {ds : List Char} (hs : Pads s ('0' :: 'x' :: ds)) (hne : ds ≠ []) (hlen : ds.length ≤ 64)
    (hds : ∀ c ∈ ds, Hex.isDigit c = true) : Spells (.inr s) (Hex.denoted ds)
  | decimal {s : String} {ds : List Char} (hs : Pads s ds) (hne : ds ≠ []) (hlen : ds.length ≤ 4300)
    (hds : ∀ c ∈ ds, Text.isAsciiDigit c = true) : Spells (.inr s) (decimalDenoted ds)

def Same (w w' : WrittenWord) : Prop :=
  ∃ n, Spells w n ∧ Spells w' n

theorem isBlank_of_ascii {c : Char} (hlow : 48 ≤ c.toNat) (hhigh : c.toNat < 128) : Text.isBlank c = false := by
  simp only [Text.isBlank, Bool.or_eq_false_iff, Bool.and_eq_false_iff, decide_eq_false_iff_not, beq_eq_false_iff_ne]
  omega

theorem ascii_of_isDigit {c : Char} (h : Hex.isDigit c = true) : 48 ≤ c.toNat ∧ c.toNat ≤ 102 := by
  have hle (a b : Char) (hab : a ≤ b) : a.toNat ≤ b.toNat := hab
  simp only [Hex.isDigit, Hex.digit?] at h
  split at h
  · rename_i hc
    have h0 : 48 ≤ c.toNat := hle _ _ hc.1
    have h9 : c.toNat ≤ 57 := hle _ _ hc.2
    omega
  · split at h
    · rename_i hc
      have ha : 97 ≤ c.toNat := hle _ _ hc.1
      have hf : c.toNat ≤ 102 := hle _ _ hc.2
      omega
    · split at h
      · rename_i hc
        have ha : 65 ≤ c.toNat := hle _ _ hc.1
        have hf : c.toNat ≤ 70 := hle _ _ hc.2
        omega
      · cases h

theorem ascii_of_isAsciiDigit {c : Char} (h : Text.isAsciiDigit c = true) : 48 ≤ c.toNat ∧ c.toNat ≤ 57 := by
  simp only [Text.isAsciiDigit, Bool.and_eq_true, decide_eq_true_eq] at h
  exact h

theorem Pads.trim {s : String} {body : List Char} (h : Pads s body)
    (hbody : ∀ c ∈ body, 48 ≤ c.toNat ∧ c.toNat < 128) : Text.trim Text.isBlank s.toList = body := by
  obtain ⟨left, right, hs, hleft, hright⟩ := h
  rw [hs]
  exact Text.trim_of_blank hleft hright fun c hc => isBlank_of_ascii (hbody c hc).1 (hbody c hc).2

theorem ascii_of_marked {m : Char} {ds : List Char} (hm : 48 ≤ m.toNat ∧ m.toNat < 128)
    (hds : ∀ c ∈ ds, Hex.isDigit c = true) : ∀ c ∈ '0' :: m :: ds, 48 ≤ c.toNat ∧ c.toNat < 128 := by
  simp only [List.forall_mem_cons]
  refine ⟨by decide, hm, ?_⟩
  intro c hc
  have := ascii_of_isDigit (hds c hc)
  omega

theorem parseText_of_hex {s : String} {ds : List Char} (hs : Pads s ('0' :: 'x' :: ds)) (hne : ds ≠ [])
    (hlen : ds.length ≤ 64) (hds : ∀ c ∈ ds, Hex.isDigit c = true) : parseText s = inRange (Hex.denoted ds) := by
  have hmarker : hasMarker ('0' :: 'x' :: ds) = true := rfl
  have hshape : isHexText false false (String.ofList ('0' :: 'x' :: ds)) = true := by
    simp [isHexText, hexShape, List.dropWhile_eq_nil_iff.mpr hds]
  have hempty : ds.isEmpty = false := by simpa using hne
  rw [parseText, hs.trim (ascii_of_marked (by decide) hds)]
  simp only [hmarker, ↓reduceIte, List.drop_succ_cons, List.drop_zero, hempty, hshape, List.length_cons,
    Hex.toNat?_eq hds]
  rw [if_neg]
  simp
  omega

theorem value_eq {ds : List Char} (hds : ∀ c ∈ ds, Text.isAsciiDigit c = true) :
    Integer.value 10 ds = decimalDenoted ds := by
  rw [decimalDenoted, ← foldl_eq_ofDigits]
  induction ds using List.reverseRecOn with
  | nil => rfl
  | append_singleton ds c ih =>
    obtain ⟨hds, hc⟩ := List.forall_mem_append.mp hds
    obtain ⟨hlow, hhigh⟩ := ascii_of_isAsciiDigit (hc c (List.mem_singleton_self c))
    have hdigit : Integer.digit? 10 c = some (c.toNat - 48) := by
      have hle (a b : Char) : a ≤ b ↔ a.toNat ≤ b.toNat := Iff.rfl
      have ha : 'a'.toNat = 97 := rfl
      have hA : 'A'.toNat = 65 := rfl
      simp only [Integer.digit?, hle]
      rw [if_neg (by omega), if_neg (by omega), if_pos (hc c (List.mem_singleton_self c))]
      simp
      omega
    have hvalue : Integer.value 10 (ds ++ [c]) = Integer.value 10 ds * 10 + (c.toNat - 48) := by
      simp [Integer.value, List.foldl_append, hdigit]
    rw [hvalue, ih hds, List.map_append, List.foldl_append]
    rfl

theorem parseText_of_decimal {s : String} {ds : List Char} (hs : Pads s ds) (hne : ds ≠ []) (hlen : ds.length ≤ 4300)
    (hds : ∀ c ∈ ds, Text.isAsciiDigit c = true) : parseText s = inRange (decimalDenoted ds) := by
  have hascii : ∀ c ∈ ds, 48 ≤ c.toNat ∧ c.toNat < 128 := by
    intro c hc
    have := ascii_of_isAsciiDigit (hds c hc)
    omega
  have hmarker : hasMarker ds = false := by
    unfold hasMarker
    split
    · rename_i m _
      have hm := (ascii_of_isAsciiDigit (hds m (by simp))).2
      rw [Bool.or_eq_false_iff, beq_eq_false_iff_ne, beq_eq_false_iff_ne]
      refine ⟨?_, ?_⟩ <;> rintro rfl <;> simp at hm
    · rfl
  have hall : ds.all Text.isAsciiDigit = true := List.all_eq_true.mpr hds
  have hempty : ds.isEmpty = false := by simpa using hne
  have hcount : ¬ds.length > Integer.maxDigits := not_lt.mpr hlen
  rw [parseText, hs.trim hascii]
  simp only [hmarker, hall, hempty, hcount, value_eq hds, Bool.false_eq_true, not_false_eq_true, and_self, ↓reduceIte]

theorem read_of_spells {w : WrittenWord} {n : ℤ} (h : Spells w n) : w.read = inRange n := by
  cases h with
  | integer => rfl
  | hex hs hne hlen hds => exact parseText_of_hex hs hne hlen hds
  | decimal hs hne hlen hds => exact parseText_of_decimal hs hne hlen hds

theorem toList_hexOfNat (n : ℕ) : (hexOfNat n).toList = '0' :: 'x' :: Hex.encode (Bytes.ofNat 32 n) := by
  have hmarker : "0x".toList = ['0', 'x'] := rfl
  rw [hexOfNat, String.toList_append, hmarker, Hex.ofBytes, String.toList_ofList, List.cons_append,
    List.singleton_append]

theorem spells_hexOfNat {n : ℕ} (hn : n < 256 ^ 32) : Spells (.inr (hexOfNat n)) n := by
  have hlen : (Hex.encode (Bytes.ofNat 32 n)).length = 64 := by rw [Hex.length_encode, Bytes.length_ofNat]
  have hpads : Pads (hexOfNat n) ('0' :: 'x' :: Hex.encode (Bytes.ofNat 32 n)) :=
    ⟨[], [], by simp [toList_hexOfNat], by simp, by simp⟩
  have hspells := Spells.hex hpads (List.ne_nil_of_length_pos (by omega)) hlen.le (Hex.isDigit_of_mem_encode _)
  rwa [Hex.denoted_encode, Bytes.toNat_ofNat 32 hn] at hspells

theorem inRange_eq_ok_iff {n : ℤ} {k : ℕ} : inRange n = .ok k ↔ n = k ∧ k < 2 ^ 256 := by
  have hbound : Nat.pow 2 256 = 2 ^ 256 := rfl
  unfold inRange
  split
  · rename_i hn
    rw [Except.ok.injEq]
    omega
  · rename_i hn
    constructor
    · intro h
      cases h
    · omega

theorem inRange_natCast {n : ℕ} (hn : n < 256 ^ 32) : inRange n = .ok n :=
  inRange_eq_ok_iff.mpr ⟨rfl, hn.trans_eq (by norm_num)⟩

theorem read_hexOfNat {n : ℕ} (hn : n < 256 ^ 32) : WrittenWord.read (.inr (hexOfNat n)) = .ok n :=
  (read_of_spells (spells_hexOfNat hn)).trans (inRange_natCast hn)

end Word

end Settlement
