import Mathlib
import Settlement.Proofs.Bn254.Domain

namespace Settlement.Bn254

namespace Scalar

theorem tail_eq (x last : ℤ) (n : ℕ) :
    powers.tail x last n = (List.range n).map fun i => last * x ^ (i + 1) % r := by
  induction n generalizing last with
  | zero => rfl
  | succ n ih =>
    rw [powers.tail, ih, List.range_succ_eq_map, List.map_cons, List.map_map]
    refine congrArg₂ List.cons (by rw [zero_add, pow_one]) ?_
    apply List.map_congr_left
    intro i _
    rw [Function.comp_apply, emod_eq_iff, Int.cast_mul, cast_emod, ← Int.cast_mul]
    congr 1
    rw [pow_succ x (i + 1)]
    ring

theorem powers_eq (x : ℤ) (n : ℕ) : powers x n = (List.range n).map (pow x) := by
  cases n with
  | zero => rfl
  | succ n =>
    rw [powers, tail_eq, List.range_succ_eq_map, List.map_cons, List.map_map]
    refine congrArg₂ List.cons ?_ ?_
    · rw [pow_eq, pow_zero]
      rfl
    · apply List.map_congr_left
      intro i _
      rw [Function.comp_apply, pow_eq, one_mul]

theorem pow_eq_emod_iff (x : ℤ) (e : ℕ) (y : ℤ) : pow x e = y % r ↔ (x : Fr) ^ e = y := by
  rw [pow_eq, emod_eq_iff, Int.cast_pow]

end Scalar

namespace Domain

variable {d : Domain}

theorem elements_eq (d : Domain) : d.elements = (List.range d.size).map (Scalar.pow d.omega) :=
  Scalar.powers_eq d.omega d.size

namespace Accepted

variable (hd : d.Accepted)

include hd

theorem ofRoot_eq_ok : ofRoot d.size d.omega = .ok d := by
  have htwo := hd.two_le
  have hpower : Scalar.isPowerOfTwo d.size = true := by
    obtain ⟨k, hk⟩ := hd.exists_log
    rw [Scalar.isPowerOfTwo, decide_eq_true_eq, Int.toNat_natCast, Nat.pow_eq]
    refine ⟨by omega, ?_⟩
    rw [hk, Nat.log2_two_pow]
  have hfull : Scalar.pow d.omega d.size = 1 := by
    refine (Scalar.pow_eq_emod_iff _ _ 1).mpr ?_
    rw [hd.primitive.pow_eq_one, Int.cast_one]
  have hhalf : Scalar.pow d.omega (d.size / 2) ≠ 1 := by
    intro h
    have hone := (Scalar.pow_eq_emod_iff _ _ 1).mp h
    have hne := hd.primitive.pow_ne_one_of_pos_of_lt (show d.size / 2 ≠ 0 by omega) (by omega)
    exact hne (hone.trans Int.cast_one)
  rw [ofRoot, if_neg, if_neg]
  · rw [Int.toNat_natCast]
  · rw [Int.toNat_natCast, not_or, not_not]
    exact ⟨hfull, hhalf⟩
  · rw [not_or, not_lt, not_not]
    exact ⟨by omega, hpower⟩

theorem node_mod (i : ℕ) : d.node (i % d.size) = d.node i := by
  rw [node, node, hd.primitive.eq_orderOf, pow_mod_orderOf]

theorem nodup_elements : d.elements.Nodup := by
  rw [elements_eq]
  refine List.Nodup.map_on ?_ List.nodup_range
  intro i hi j hj h
  rw [List.mem_range] at hi hj
  apply hd.primitive.pow_inj hi hj
  rw [← Scalar.cast_pow, h, Scalar.cast_pow]

theorem getElem?_elements (i : ℤ) : d.elements[(i % d.size).toNat]? = some (d.element i) := by
  have hpos := hd.size_pos
  have hlt := Int.emod_lt_of_pos i (show 0 < (d.size : ℤ) by omega)
  rw [elements_eq, List.getElem?_map, List.getElem?_range (by omega)]
  rfl

theorem element_mul (i j : ℤ) : d.element i * d.element j % r = d.element (i + j) := by
  have hpos := hd.size_pos
  have hsum : ((i + j) % d.size).toNat = ((i % d.size).toNat + (j % d.size).toNat) % d.size := by
    have hi := Int.emod_nonneg i (show (d.size : ℤ) ≠ 0 by omega)
    have hj := Int.emod_nonneg j (show (d.size : ℤ) ≠ 0 by omega)
    rw [Int.add_emod, ← Int.toNat_of_nonneg hi, ← Int.toNat_of_nonneg hj]
    norm_cast
  symm
  rw [element, Scalar.pow_eq_emod_iff, Int.cast_mul, cast_element, cast_element, hsum]
  calc d.node (((i % d.size).toNat + (j % d.size).toNat) % d.size)
      = d.node ((i % d.size).toNat + (j % d.size).toNat) := hd.node_mod _
    _ = d.node (i % d.size).toNat * d.node (j % d.size).toNat := pow_add _ _ _

theorem vanishing_eq_zero_iff_mem (z : ℤ) : d.vanishing z = 0 ↔ z % r ∈ d.elements := by
  rw [vanishing_eq_zero_iff, elements_eq, List.mem_map]
  constructor
  · intro hz
    obtain ⟨i, hi, hnode⟩ := hd.exists_node_of_pow_eq_one hz
    exact ⟨i, List.mem_range.mpr hi, (Scalar.pow_eq_emod_iff _ _ _).mpr hnode⟩
  · rintro ⟨i, -, hi⟩
    rw [← (Scalar.pow_eq_emod_iff _ _ _).mp hi]
    exact hd.node_pow i

end Accepted

theorem accepted_iff : d.Accepted ↔ ∃ k, 1 ≤ k ∧ k ≤ 28 ∧ d.size = 2 ^ k ∧ orderOf (d.omega : Fr) = 2 ^ k := by
  constructor
  · intro hd
    obtain ⟨k, hk⟩ := hd.exists_log
    have hdvd := hd.size_dvd
    have htwo := hd.two_le
    rw [hk] at hdvd htwo
    refine ⟨k, ?_, (Nat.pow_dvd_pow_iff_le_right (by decide)).mp hdvd, hk, ?_⟩
    · by_contra h
      obtain rfl : k = 0 := by omega
      omega
    · rw [← hd.primitive.eq_orderOf, hk]
  · rintro ⟨k, hlow, -, hk, horder⟩
    refine ⟨?_, ⟨k, hk⟩, ?_⟩
    · rw [hk]
      exact Nat.le_self_pow (by omega) 2
    · rw [hk, ← horder]
      exact IsPrimitiveRoot.orderOf _

/-- The elements of the domain are the roots of unity of its order, each in the place of its exponent. -/
structure IsRootGroup (d : Domain) : Prop where
  length : d.elements.length = d.size
  nodup : d.elements.Nodup
  element : ∀ i : ℤ, d.elements[(i % d.size).toNat]? = some (d.element i)
  mul : ∀ i j : ℤ, d.element i * d.element j % r = d.element (i + j)
  vanishing : ∀ z : ℤ, d.vanishing z = 0 ↔ z % r ∈ d.elements

theorem Accepted.isRootGroup (hd : d.Accepted) : d.IsRootGroup where
  length := Scalar.length_powers d.omega d.size
  nodup := hd.nodup_elements
  element := hd.getElem?_elements
  mul := hd.element_mul
  vanishing := hd.vanishing_eq_zero_iff_mem

theorem ofRoot_isOk_iff (size omega : ℤ) : (∃ d, ofRoot size omega = .ok d) ↔
    ∃ k, 1 ≤ k ∧ k ≤ 28 ∧ size = 2 ^ k ∧ orderOf (omega : Fr) = 2 ^ k := by
  constructor
  · rintro ⟨d, h⟩
    obtain ⟨hd, hsize, homega⟩ := accepted_of_ofRoot h
    obtain ⟨k, hlow, hhigh, hk, horder⟩ := accepted_iff.mp hd
    refine ⟨k, hlow, hhigh, ?_, homega ▸ horder⟩
    rw [← hsize, hk]
    norm_cast
  · rintro ⟨k, hlow, hhigh, rfl, horder⟩
    have hd : Accepted ⟨2 ^ k, omega⟩ := accepted_iff.mpr ⟨k, hlow, hhigh, rfl, horder⟩
    have hok := hd.ofRoot_eq_ok
    rw [Nat.cast_pow, Nat.cast_ofNat] at hok
    exact ⟨_, hok⟩

/-- Exactly the groups of roots of unity are accepted, up to that of order `2 ^ 28`. -/
theorem ofRoot_accepts_groups (size omega : ℤ) :
    ((∃ d, ofRoot size omega = .ok d) ↔ ∃ k, 1 ≤ k ∧ k ≤ 28 ∧ size = 2 ^ k ∧ orderOf (omega : Fr) = 2 ^ k) ∧
    (2 ^ 28 < size → ∃ e, ofRoot size omega = .error e) ∧
    ∀ d, ofRoot size omega = .ok d → d.size = size ∧ d.omega = omega ∧ d.IsRootGroup := by
  refine ⟨ofRoot_isOk_iff size omega, ?_, ?_⟩
  · intro hlarge
    cases h : ofRoot size omega with
    | error e => exact ⟨e, rfl⟩
    | ok d =>
      obtain ⟨k, -, hhigh, rfl, -⟩ := (ofRoot_isOk_iff size omega).mp ⟨d, h⟩
      exact absurd hlarge (not_lt.mpr (pow_le_pow_right₀ (by decide) hhigh))
  · intro d h
    obtain ⟨hd, hsize, homega⟩ := accepted_of_ofRoot h
    exact ⟨hsize, homega, hd.isRootGroup⟩

end Domain

end Settlement.Bn254
