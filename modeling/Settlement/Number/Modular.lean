
namespace Settlement

def powMod (b e m : Nat) : Nat :=
  if e = 0 then 1 % m
  else
    let h := powMod (b * b % m) (e / 2) m
    if e % 2 = 1 then b * h % m else h
termination_by e

theorem powMod_eq (b e m : Nat) : powMod b e m = Nat.pow b e % m := by
  rw [Nat.pow_eq]
  fun_induction powMod b e m with
  | case1 => simp
  | case2 b e _ h ho ih =>
    have he : e = 2 * (e / 2) + 1 := by omega
    simp only [h, ih]
    conv => rhs; rw [he, Nat.pow_succ, Nat.pow_mul, Nat.mul_comm, Nat.pow_two]
    rw [Nat.mul_mod, Nat.mod_mod, ← Nat.pow_mod, ← Nat.mul_mod]
  | case3 b e _ h ho ih =>
    have he : e = 2 * (e / 2) := by omega
    simp only [h, ih]
    conv => rhs; rw [he, Nat.pow_mul, Nat.pow_two]
    rw [← Nat.pow_mod]

end Settlement
