import Mathlib
import Settlement.Proofs.Bridge.Binding

namespace Settlement

def Address.Displays (s : String) (a : Address) : Prop :=
  IsChecksummed s ∧ Spells s a

theorem Address.displays_checksum (a : Address) : Displays a.checksum a :=
  ⟨isChecksummed_checksum a, spells_checksum a⟩

theorem Address.toNat_ofNat {n : ℕ} (hn : n < 2 ^ 160) : (ofNat n).toNat = n :=
  Bytes.toNat_ofNat 20 (hn.trans_eq (by norm_num))

namespace Bridge

open Address

variable {f g : Address → Address} {v w : Value} {a b : Address} {shift : ℤ}

theorem addressModulus_eq : addressModulus = 2 ^ 160 := rfl

theorem toNat_applyAlias (a : Address) : ((applyAlias a).toNat : ℤ) = (a.toNat + aliasOffset) % 2 ^ 160 := by
  rw [applyAlias, addressModulus_eq, toNat_ofNat (Nat.mod_lt _ (by positivity))]
  push_cast
  rfl

theorem toNat_undoAlias (a : Address) : ((undoAlias a).toNat : ℤ) = (a.toNat + -aliasOffset) % 2 ^ 160 := by
  have hoffset : aliasOffset ≤ 2 ^ 160 := by norm_num [aliasOffset]
  rw [undoAlias, addressModulus_eq, toNat_ofNat (Nat.mod_lt _ (by positivity)), Int.natCast_mod, Nat.cast_add,
    Nat.cast_sub hoffset]
  simp only [Nat.cast_pow, Nat.cast_ofNat]
  rw [show (a.toNat : ℤ) + (2 ^ 160 - aliasOffset) = a.toNat + -aliasOffset + 2 ^ 160 by ring, Int.add_emod_right]

theorem eq_of_shifts (hf : (b.toNat : ℤ) = (a.toNat + shift) % 2 ^ 160)
    {c : Address} (hg : (c.toNat : ℤ) = (b.toNat + -shift) % 2 ^ 160) : c = a := by
  have ha : (a.toNat : ℤ) < 2 ^ 160 := by
    have hlt := a.toNat_lt
    rw [show 256 ^ 20 = 2 ^ 160 by norm_num] at hlt
    exact_mod_cast hlt
  apply toNat_inj
  have hback : (c.toNat : ℤ) = a.toNat := by
    calc (c.toNat : ℤ) = ((a.toNat + shift) % 2 ^ 160 + -shift) % 2 ^ 160 := by rw [hg, hf]
      _ = (a.toNat + shift + -shift) % 2 ^ 160 := Int.emod_add_emod ..
      _ = a.toNat % 2 ^ 160 := by rw [add_neg_cancel_right]
      _ = a.toNat := Int.emod_eq_of_lt (by positivity) ha
  exact_mod_cast hback

theorem undoAlias_applyAlias (a : Address) : undoAlias (applyAlias a) = a :=
  eq_of_shifts (toNat_applyAlias a) (toNat_undoAlias _)

theorem applyAlias_undoAlias (a : Address) : applyAlias (undoAlias a) = a := by
  refine eq_of_shifts (toNat_undoAlias a) ?_
  rw [neg_neg]
  exact toNat_applyAlias _

theorem aliasOfValue_of_denotes (h : Denotes v a) : aliasOfValue f v = .ok (f a).checksum :=
  Except.bind_eq_ok.mpr ⟨a, Blueprint.namedAddress_eq_ok.mpr h, rfl⟩

theorem aliasOfValue_of_text {s : String} (h : ¬∃ a, Spells s a) :
    aliasOfValue f (.text s) = .error (.address (.text s)) := by
  have hparse : parse? s = none := by
    rw [Option.eq_none_iff_forall_ne_some]
    exact fun a ha => h ⟨a, parse?_eq_some_iff.mp ha⟩
  rw [aliasOfValue, namedAddress, ofValue, hparse]
  rfl

theorem aliasOfValue_inj (hgf : Function.LeftInverse g f) (hv : Denotes v a) (hw : Denotes w b)
    (h : aliasOfValue f v = aliasOfValue f w) : a = b := by
  rw [aliasOfValue_of_denotes hv, aliasOfValue_of_denotes hw] at h
  exact hgf.injective (checksum_inj (Except.ok.inj h))

/-- Whatever denotes an address becomes the text of the address that lies so much further, modulo `2 ^ 160`; and the
text becomes that of the first address again. -/
def Shifts (forth back : Value → Except Error String) (shift : ℤ) : Prop :=
  ∀ v a, Denotes v a → ∃ s b, forth v = .ok s ∧ Displays s b ∧ (b.toNat : ℤ) = (a.toNat + shift) % 2 ^ 160 ∧
    ∃ t, back (.text s) = .ok t ∧ Displays t a

theorem shifts_aliasOfValue (hgf : Function.LeftInverse g f)
    (hf : ∀ a, ((f a).toNat : ℤ) = (a.toNat + shift) % 2 ^ 160) : Shifts (aliasOfValue f) (aliasOfValue g) shift := by
  intro v a hv
  refine ⟨_, f a, aliasOfValue_of_denotes hv, displays_checksum _, hf a, a.checksum, ?_, displays_checksum a⟩
  rw [aliasOfValue_of_denotes (denotes_checksum (f a)), hgf]

/-- Applying and undoing an alias are inverse to each other on the addresses in all their spellings, and so no two
addresses have the same alias. Text that spells no address is refused by name. -/
theorem alias_bijective :
    Shifts applyAliasOfValue undoAliasOfValue aliasOffset ∧ Shifts undoAliasOfValue applyAliasOfValue (-aliasOffset) ∧
    (∀ v w a b, Denotes v a → Denotes w b →
      applyAliasOfValue v = applyAliasOfValue w ∨ undoAliasOfValue v = undoAliasOfValue w → a = b) ∧
    ∀ s, (¬∃ a, Spells s a) → applyAliasOfValue (.text s) = .error (.address (.text s)) ∧
      undoAliasOfValue (.text s) = .error (.address (.text s)) := by
  refine ⟨?_, ?_, ?_, ?_⟩
  · exact shifts_aliasOfValue undoAlias_applyAlias toNat_applyAlias
  · exact shifts_aliasOfValue applyAlias_undoAlias toNat_undoAlias
  · rintro v w a b hv hw (h | h)
    · exact aliasOfValue_inj undoAlias_applyAlias hv hw h
    · exact aliasOfValue_inj applyAlias_undoAlias hv hw h
  · exact fun s h => ⟨aliasOfValue_of_text h, aliasOfValue_of_text h⟩

def topText : Value :=
  .text "0XffFFffFFffFFffFFffFFffFFffFFffFFffFFffFF"

theorem alias_bijective_top : Denotes topText (.ofNat (2 ^ 160 - 1)) ∧ ∃ s b, applyAliasOfValue topText = .ok s ∧
    Displays s b ∧ b.toNat = aliasOffset - 1 ∧ ∃ t, undoAliasOfValue (.text s) = .ok t ∧
      Displays t (.ofNat (2 ^ 160 - 1)) := by
  have htop : Denotes topText (.ofNat (2 ^ 160 - 1)) := by
    rw [topText, Denotes, Spells]
    decide
  obtain ⟨s, b, hforth, hb, hshift, hback⟩ := alias_bijective.1 _ _ htop
  rw [toNat_ofNat (by norm_num)] at hshift
  have hwrap : (b.toNat : ℤ) = aliasOffset - 1 := by
    rw [hshift]
    norm_num [aliasOffset]
  refine ⟨htop, s, b, hforth, hb, ?_, hback⟩
  norm_num [aliasOffset] at hwrap ⊢
  omega

end Bridge

end Settlement
