import Mathlib
import Settlement.Proofs.Bn254.Prime

namespace Settlement.Bn254

abbrev Fr := ZMod r

namespace Scalar

@[simp] theorem cast_emod (x : ℤ) : ((x % r : ℤ) : Fr) = x := ZMod.intCast_mod x r

theorem emod_eq_iff (x y : ℤ) : x % r = y % r ↔ (x : Fr) = y :=
  (ZMod.intCast_eq_intCast_iff' x y r).symm

theorem emod_eq_zero_iff (x : ℤ) : x % r = 0 ↔ (x : Fr) = 0 := by
  simpa only [Int.zero_emod, Int.cast_zero] using emod_eq_iff x 0

theorem emod_toNat (x : ℤ) : ((x % r).toNat : ℤ) = x % r :=
  Int.toNat_of_nonneg (Int.emod_nonneg x (by decide))

@[simp] theorem cast_emod_toNat (x : ℤ) : (((x % r).toNat : ℕ) : Fr) = x := by
  rw [← Int.cast_natCast, emod_toNat, cast_emod]

theorem isCanonical_iff (x : ℤ) : isCanonical x = true ↔ 0 ≤ x ∧ x < r := by
  simp [isCanonical]

theorem emod_of_isCanonical {x : ℤ} (hx : isCanonical x = true) : x % r = x := by
  obtain ⟨h0, hr⟩ := (isCanonical_iff x).mp hx
  exact Int.emod_eq_of_lt h0 hr

theorem pow_eq (x : ℤ) (e : ℕ) : pow x e = x ^ e % r := by
  rw [pow, powMod_eq, Nat.pow_eq, Int.natCast_mod, Int.natCast_pow, emod_toNat, emod_eq_iff,
    Int.cast_pow, Int.cast_pow, cast_emod]

@[simp] theorem cast_pow (x : ℤ) (e : ℕ) : ((pow x e : ℤ) : Fr) = (x : Fr) ^ e := by
  rw [pow_eq, cast_emod, Int.cast_pow]

theorem cast_sum (xs : List ℤ) : ((sum xs : ℤ) : Fr) = (xs.map (Int.cast : ℤ → Fr)).sum := by
  rw [sum, cast_emod]
  induction xs with
  | nil => simp
  | cons x xs ih => rw [List.foldr_cons, Int.cast_add, ih, List.map_cons, List.sum_cons]

theorem length_tail (x last : ℤ) (n : ℕ) : (powers.tail x last n).length = n := by
  induction n generalizing last with
  | zero => rfl
  | succ n ih => rw [powers.tail, List.length_cons, ih]

theorem length_powers (x : ℤ) (n : ℕ) : (powers x n).length = n := by
  cases n with
  | zero => rfl
  | succ n => rw [powers, List.length_cons, length_tail]

theorem map_cast_tail (x last : ℤ) (n : ℕ) :
    (powers.tail x last n).map (Int.cast : ℤ → Fr) =
      (List.range n).map fun i => (last : Fr) * (x : Fr) ^ (i + 1) := by
  induction n generalizing last with
  | zero => rfl
  | succ n ih =>
    rw [powers.tail, List.map_cons, ih, List.range_succ_eq_map, List.map_cons, List.map_map]
    simp [pow_succ, mul_assoc, mul_comm, mul_left_comm]

theorem map_cast_powers (x : ℤ) (n : ℕ) :
    (powers x n).map (Int.cast : ℤ → Fr) = (List.range n).map fun i => (x : Fr) ^ i := by
  cases n with
  | zero => rfl
  | succ n =>
    rw [powers, List.map_cons, map_cast_tail, List.range_succ_eq_map, List.map_cons, List.map_map]
    simp [Function.comp_def]

theorem cast_getD_powers {n i : ℕ} (x : ℤ) (hi : i < n) : (((powers x n).getD i 0 : ℤ) : Fr) = (x : Fr) ^ i := by
  have h := congrArg (fun l => l[i]?) (map_cast_powers x n)
  simp only [List.getElem?_map, List.getElem?_range hi, Option.map_some] at h
  obtain ⟨y, hy, hyx⟩ := Option.map_eq_some_iff.mp h
  rw [List.getD_eq_getElem?_getD, hy, Option.getD_some, hyx]

theorem sum_zip_powers {α : Type} (f : α → Fr) (x : ℤ) {l : List α} {n : ℕ} (hn : l.length = n) :
    (((powers x n).zip l).map fun t => (t.1 : Fr) * f t.2).sum =
      ∑ i : Fin l.length, (x : Fr) ^ (i : ℕ) * f l[i] := by
  subst hn
  rw [← List.sum_ofFn]
  congr 1
  apply List.ext_getElem
  · simp [length_powers]
  · intro i hi _
    simp only [List.length_map, List.length_zip, length_powers, min_self] at hi
    have hpow := cast_getD_powers x hi
    rw [List.getD_eq_getElem _ _ (by rwa [length_powers])] at hpow
    simp [hpow]

theorem sum_zip_powers_right {α : Type} (f : α → Fr) (x : ℤ) {l : List α} {n : ℕ} (hn : l.length = n) :
    ((l.zip (powers x n)).map fun t => (t.2 : Fr) * f t.1).sum =
      ∑ i : Fin l.length, (x : Fr) ^ (i : ℕ) * f l[i] := by
  rw [← sum_zip_powers f x hn, ← List.zip_swap, List.map_map]
  rfl

def fold {K : Type} [CommRing K] (v : K) : List K → K
  | [] => 0
  | a :: l => a + v * fold v l

theorem fold_map_eq_sum {α K : Type} [CommRing K] (f : α → K) (v : K) (l : List α) :
    fold v (l.map f) = ∑ i : Fin l.length, v ^ (i : ℕ) * f l[i] := by
  induction l with
  | nil => rfl
  | cons a l ih =>
    rw [List.map_cons, fold, ih, Finset.mul_sum]
    refine Eq.trans ?_
      (Fin.sum_univ_succ (fun i : Fin (l.length + 1) => v ^ (i : ℕ) * f (a :: l)[i])).symm
    congr 1
    · simp
    · exact Finset.sum_congr rfl fun i _ => by simp [pow_succ', mul_assoc]

theorem fold_map {K L : Type} [CommRing K] [CommRing L] (f : K →+* L) (v : K) (l : List K) :
    fold (f v) (l.map f) = f (fold v l) := by
  induction l with
  | nil => exact (map_zero f).symm
  | cons a l ih => rw [List.map_cons, fold, ih, fold, map_add, map_mul]

theorem fold_sub {α K : Type} [CommRing K] (f g : α → K) (v : K) (l : List α) :
    fold v (l.map fun a => f a - g a) = fold v (l.map f) - fold v (l.map g) := by
  induction l with
  | nil => exact (sub_zero 0).symm
  | cons a l ih =>
    simp only [List.map_cons, fold, ih]
    ring

theorem fold_eq_sum_getD {K : Type} [CommRing K] (v : K) {l : List K} {n : ℕ} (hn : l.length ≤ n) :
    fold v l = ∑ i : Fin n, v ^ (i : ℕ) * l.getD i 0 := by
  induction l generalizing n with
  | nil => simp [fold]
  | cons a l ih =>
    obtain _ | n := n
    · cases hn
    rw [fold, ih (Nat.le_of_succ_le_succ hn), Fin.sum_univ_succ, Finset.mul_sum]
    simp [pow_succ', mul_assoc]

theorem inv_ok {x : ℤ} (hx : (x : Fr) ≠ 0) : ∃ y, inv x = .ok y ∧ (y : Fr) = (x : Fr)⁻¹ := by
  have hm : x % r ≠ 0 := by rwa [Ne, emod_eq_zero_iff]
  refine ⟨pow x (r - 2), if_neg hm, ?_⟩
  apply eq_inv_of_mul_eq_one_left
  rw [cast_pow, ← pow_succ, show r - 2 + 1 = r - 1 by decide]
  exact ZMod.pow_card_sub_one_eq_one hx

theorem cast_total (acc : ℤ) (xs : List ℤ) :
    (((runningProducts acc xs).2 : ℤ) : Fr) = acc * (xs.map (Int.cast : ℤ → Fr)).prod := by
  induction xs generalizing acc with
  | nil => simp [runningProducts]
  | cons x xs ih =>
    simp only [runningProducts, ih, cast_emod, Int.cast_mul, List.map_cons, List.prod_cons]
    ring

theorem unwind_runningProducts {acc i : ℤ} {xs : List ℤ} (hxs : ∀ x ∈ xs, (x : Fr) ≠ 0)
    (hi : (i : Fr) * ((runningProducts acc xs).2 : ℤ) = 1) :
    ((unwind ((runningProducts acc xs).1.zip xs) i).1.map (Int.cast : ℤ → Fr) =
        xs.map fun x : ℤ => (x : Fr)⁻¹) ∧
      ((unwind ((runningProducts acc xs).1.zip xs) i).2 : Fr) * acc = 1 := by
  -- entering an element with the inverse of the product up to it, the walk leaves with the inverse of the product
  -- before it
  induction xs generalizing acc with
  | nil => exact ⟨rfl, hi⟩
  | cons x xs ih =>
    rw [List.forall_mem_cons] at hxs
    obtain ⟨hmap, hout⟩ := ih hxs.2 hi
    rw [cast_emod, Int.cast_mul] at hout
    simp only [runningProducts, List.zip_cons_cons, unwind, List.map_cons, hmap, cast_emod, Int.cast_mul]
    refine ⟨?_, ?_⟩
    · congr 1
      apply eq_inv_of_mul_eq_one_left
      rw [← hout]
      ring
    · rw [← hout]
      ring

theorem batchInv_ok {xs : List ℤ} (hxs : ∀ x ∈ xs, (x : Fr) ≠ 0) :
    ∃ ys, batchInv xs = .ok ys ∧ ys.map (Int.cast : ℤ → Fr) = xs.map fun x : ℤ => (x : Fr)⁻¹ := by
  have hany : xs.any (· % r == 0) = false := by
    rw [List.any_eq_false]
    intro x hx
    simpa only [beq_iff_eq, emod_eq_zero_iff] using hxs x hx
  by_cases hnil : xs = []
  · subst hnil
    exact ⟨[], rfl, rfl⟩
  have htotal : (((runningProducts 1 xs).2 : ℤ) : Fr) ≠ 0 := by
    rw [cast_total, Int.cast_one, one_mul]
    apply List.prod_ne_zero
    simpa [eq_comm] using hxs
  obtain ⟨i, hi, hinv⟩ := inv_ok htotal
  have hone : (i : Fr) * ((runningProducts 1 xs).2 : ℤ) = 1 := by rw [hinv, inv_mul_cancel₀ htotal]
  refine ⟨_, ?_, (unwind_runningProducts hxs hone).1⟩
  rw [batchInv, hany]
  simp [hnil, hi, Except.map]

end Scalar

section Roots

open Polynomial

theorem ncard_le_natDegree {q : Fr[X]} (hq : q ≠ 0) {s : Set Fr} (hs : ∀ u ∈ s, q.eval u = 0) :
    s.ncard ≤ q.natDegree := by
  have hsub : s ⊆ q.roots.toFinset := by
    intro u hu
    rw [Finset.mem_coe, Multiset.mem_toFinset, mem_roots hq]
    exact hs u hu
  calc s.ncard ≤ (q.roots.toFinset : Set Fr).ncard := Set.ncard_le_ncard hsub
    _ = q.roots.toFinset.card := Set.ncard_coe_finset _
    _ ≤ q.natDegree := (Multiset.toFinset_card_le _).trans (card_roots' _)

theorem ncard_le_of_fold_eq_zero {n : ℕ} {a : Fin n → Fr} (ha : ∃ i, a i ≠ 0) {s : Set Fr}
    (hs : ∀ u ∈ s, ∑ i : Fin n, u ^ (i : ℕ) * a i = 0) : s.ncard ≤ n - 1 := by
  let q : Fr[X] := ∑ i : Fin n, C (a i) * X ^ (i : ℕ)
  obtain ⟨k, hk⟩ := ha
  have hcoeff : q.coeff k = a k := by
    rw [finsetSum_coeff, Finset.sum_eq_single k]
    · rw [coeff_C_mul_X_pow, if_pos rfl]
    · intro i _ hik
      rw [coeff_C_mul_X_pow, if_neg (fun h => hik (Fin.ext h.symm))]
    · exact fun h => absurd (Finset.mem_univ k) h
  have hq : q ≠ 0 := by
    intro h0
    rw [h0, coeff_zero] at hcoeff
    exact hk hcoeff.symm
  have heval : ∀ u ∈ s, q.eval u = 0 := by
    intro u hu
    rw [← hs u hu, eval_finsetSum]
    exact Finset.sum_congr rfl fun i _ => by rw [eval_C_mul, eval_X_pow, mul_comm]
  refine (ncard_le_natDegree hq heval).trans ?_
  exact natDegree_sum_le_of_forall_le _ _ fun i _ => (natDegree_C_mul_X_pow_le _ _).trans (by omega)

end Roots

end Settlement.Bn254
