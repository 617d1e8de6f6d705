import Mathlib
import Settlement.Bn254.Scalar
import Settlement.Bn254.Tower

namespace Settlement

def lucasTest (n a : ℕ) (factors : List ℕ) : Bool :=
  decide (factors.prod = n - 1) && decide (powMod a (n - 1) n = 1) &&
    factors.all fun q => decide (powMod a ((n - 1) / q) n ≠ 1)

theorem cast_pow_eq_one_iff {n : ℕ} (hn : 1 < n) (a e : ℕ) :
    (a : ZMod n) ^ e = 1 ↔ powMod a e n = 1 := by
  rw [powMod_eq, ← Nat.cast_pow, ← Nat.cast_one, ZMod.natCast_eq_natCast_iff', Nat.mod_eq_of_lt hn,
    Nat.pow_eq]

theorem prime_of_lucasTest {n : ℕ} (a : ℕ) (small large : List ℕ) (hn : 1 < n)
    (hs : ∀ q ∈ small, q.Prime) (hl : ∀ q ∈ large, q.Prime)
    (h : lucasTest n a (small ++ large) = true) : n.Prime := by
  simp only [lucasTest, Bool.and_eq_true, decide_eq_true_eq, List.all_eq_true] at h
  obtain ⟨⟨hprod, hone⟩, hne⟩ := h
  apply lucas_primality n (a : ZMod n) ((cast_pow_eq_one_iff hn _ _).mpr hone)
  intro q hq hdvd
  rw [← hprod] at hdvd
  obtain ⟨f, hf, hqf⟩ := (Prime.dvd_prod_iff hq.prime).mp hdvd
  have hfp : f.Prime := (List.mem_append.mp hf).elim (hs f) (hl f)
  obtain rfl : q = f := (Nat.prime_dvd_prime_iff_eq hq hfp).mp hqf
  rw [Ne, cast_pow_eq_one_iff hn]
  exact hne q hf

namespace Bn254

theorem prime_405928799 : Nat.Prime 405928799 :=
  prime_of_lucasTest 22 [2, 11, 3691, 4999] [] (by norm_num) (by norm_num) (by simp) (by decide +kernel)

theorem prime_r : r.Prime := by
  have h1 : Nat.Prime 12048837557 :=
    prime_of_lucasTest 2 [2, 2, 7, 7, 661, 93001] [] (by norm_num) (by norm_num) (by simp)
      (by decide +kernel)
  have h2 : Nat.Prime 5156902474397 :=
    prime_of_lucasTest 2 [2, 2, 107] [12048837557] (by norm_num) (by norm_num) (by simpa using h1)
      (by decide +kernel)
  have h3 : Nat.Prime 1670836401704629 :=
    prime_of_lucasTest 2 [2, 2, 3, 3, 3, 3] [5156902474397] (by norm_num) (by norm_num)
      (by simpa using h2) (by decide +kernel)
  have h4 : Nat.Prime 639533339 :=
    prime_of_lucasTest 2 [2, 229, 853, 1637] [] (by norm_num) (by norm_num) (by simp)
      (by decide +kernel)
  have h5 : Nat.Prime 65865678001877903 :=
    prime_of_lucasTest 5 [2, 83, 379, 1637] [639533339] (by norm_num) (by norm_num)
      (by simpa using h4) (by decide +kernel)
  have h6 : Nat.Prime 13818364434197438864469338081 :=
    prime_of_lucasTest 3 [2, 2, 2, 2, 2, 5, 823, 1593227] [65865678001877903] (by norm_num)
      (by norm_num) (by simpa using h5) (by decide +kernel)
  exact prime_of_lucasTest 5
    [2, 2, 2, 2, 2, 2, 2, 2, 2, 2, 2, 2, 2, 2, 2, 2, 2, 2, 2, 2, 2, 2, 2, 2, 2, 2, 2, 2,
      3, 3, 13, 29, 983, 11003, 237073]
    [405928799, 1670836401704629, 13818364434197438864469338081]
    (by norm_num [r]) (by norm_num) (by simpa using ⟨prime_405928799, h3, h6⟩) (by decide +kernel)

theorem prime_p : p.Prime := by
  have h1 : Nat.Prime 1263766531 :=
    prime_of_lucasTest 10 [2, 3, 5, 13, 911, 3557] [] (by norm_num) (by norm_num) (by simp)
      (by decide +kernel)
  have h2 : Nat.Prime 35385462869 :=
    prime_of_lucasTest 2 [2, 2, 7] [1263766531] (by norm_num) (by norm_num) (by simpa using h1)
      (by decide +kernel)
  have h3 : Nat.Prime 2480874801745591 :=
    prime_of_lucasTest 6 [2, 3, 3, 5, 19, 41] [35385462869] (by norm_num) (by norm_num)
      (by simpa using h2) (by decide +kernel)
  have h4 : Nat.Prime 173171039 :=
    prime_of_lucasTest 13 [2, 73, 89, 13327] [] (by norm_num) (by norm_num) (by simp)
      (by decide +kernel)
  have h5 : Nat.Prime 13427688667394608761327070753331941386769 :=
    prime_of_lucasTest 17 [2, 2, 2, 2, 3, 7, 11, 1853641, 4562087] [173171039, 2480874801745591]
      (by norm_num) (by norm_num) (by simpa using ⟨h4, h3⟩) (by decide +kernel)
  have h6 : Nat.Prime 11465965001 :=
    prime_of_lucasTest 3 [2, 2, 2, 5, 5, 5, 5, 7, 327599] [] (by norm_num) (by norm_num) (by simp)
      (by decide +kernel)
  exact prime_of_lucasTest 3
    [2, 3, 3, 13, 29, 67, 229, 311, 983, 11003]
    [405928799, 11465965001, 13427688667394608761327070753331941386769]
    (by norm_num [p]) (by norm_num) (by simpa using ⟨prime_405928799, h6, h5⟩) (by decide +kernel)

instance : Fact r.Prime := ⟨prime_r⟩

instance : Fact p.Prime := ⟨prime_p⟩

end Bn254

end Settlement
