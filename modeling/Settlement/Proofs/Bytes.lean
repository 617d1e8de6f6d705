import Mathlib
import Settlement.Hash.Keccak

namespace Settlement

namespace Bytes

theorem toNat_append_singleton (bs : Bytes) (b : UInt8) : toNat (bs ++ [b]) = toNat bs * 256 + b.toNat := by
  rw [toNat, List.foldl_append]
  rfl

theorem toNat_ofNat (k : ℕ) {n : ℕ} (hn : n < 256 ^ k) : toNat (ofNat k n) = n := by
  induction k generalizing n with
  | zero =>
    rw [pow_zero, Nat.lt_one_iff] at hn
    rw [hn]
    rfl
  | succ k ih =>
    have hdiv : n / 256 < 256 ^ k := Nat.div_lt_of_lt_mul (by rwa [mul_comm, ← pow_succ])
    rw [ofNat, toNat_append_singleton, ih hdiv, UInt8.toNat_ofNat']
    omega

theorem ofNat_inj {k m n : ℕ} (hm : m < 256 ^ k) (hn : n < 256 ^ k) (h : ofNat k m = ofNat k n) : m = n := by
  rw [← toNat_ofNat k hm, h, toNat_ofNat k hn]

theorem ofNat_toNat_of_le {k : ℕ} {bs : Bytes} (hk : k ≤ bs.length) : ofNat k (toNat bs) = bs.drop (bs.length - k) := by
  induction k generalizing bs with
  | zero => rw [ofNat, Nat.sub_zero, List.drop_length]
  | succ k ih =>
    obtain ⟨init, b, rfl⟩ : ∃ init b, bs = init ++ [b] := by
      obtain rfl | h := List.eq_nil_or_concat bs
      · cases hk
      · simpa [List.concat_eq_append] using h
    rw [List.length_append, List.length_singleton] at hk ⊢
    have hb : b.toNat < 256 := b.toNat_lt
    have hdiv : (toNat init * 256 + b.toNat) / 256 = toNat init := by omega
    have hlast : UInt8.ofNat (toNat init * 256 + b.toNat) = b := by
      apply UInt8.toNat_inj.mp
      rw [UInt8.toNat_ofNat']
      omega
    rw [toNat_append_singleton, ofNat, hdiv, hlast, ih (by omega), Nat.add_sub_add_right,
      List.drop_append_of_le_length (Nat.sub_le _ _)]

theorem ofNat_toNat (bs : Bytes) : ofNat bs.length (toNat bs) = bs := by
  rw [ofNat_toNat_of_le le_rfl, Nat.sub_self, List.drop_zero]

theorem toNat_lt (bs : Bytes) : toNat bs < 256 ^ bs.length := by
  induction bs using List.reverseRecOn with
  | nil => decide
  | append_singleton bs b ih =>
    have hb : b.toNat < 256 := b.toNat_lt
    rw [toNat_append_singleton, List.length_append, List.length_singleton, pow_succ]
    omega

theorem splitChunks_of_empty (k : ℕ) (acc : List Bytes) : splitChunks k acc [] = acc.reverse := by
  rw [splitChunks, dif_pos (.inr rfl)]

theorem splitChunks_of_ne {k : ℕ} (hk : 0 < k) (acc : List Bytes) {bs : Bytes} (hbs : bs ≠ []) :
    splitChunks k acc bs = splitChunks k (bs.take k :: acc) (bs.drop k) := by
  rw [splitChunks, dif_neg (not_or.mpr ⟨hk.ne', hbs⟩)]

theorem splitChunks_eq {k : ℕ} (hk : 0 < k) (acc : List Bytes) (bs : Bytes) :
    splitChunks k acc bs = acc.reverse ++ splitChunks k [] bs := by
  induction hn : bs.length using Nat.strong_induction_on generalizing acc bs with
  | h n ih =>
    by_cases hbs : bs = []
    · rw [hbs, splitChunks_of_empty, splitChunks_of_empty, List.reverse_nil, List.append_nil]
    · have hlt : (bs.drop k).length < n := by
        have hpos := List.length_pos_iff.mpr hbs
        rw [List.length_drop]
        omega
      rw [splitChunks_of_ne hk acc hbs, splitChunks_of_ne hk [] hbs, ih _ hlt (bs.take k :: acc) _ rfl,
        ih _ hlt [bs.take k] _ rfl, List.reverse_cons, List.reverse_singleton, List.append_assoc]

theorem chunks_append {k : ℕ} (hk : 0 < k) {chunk : Bytes} (hchunk : chunk.length = k) (bs : Bytes) :
    chunks k (chunk ++ bs) = chunk :: chunks k bs := by
  have hne : chunk ++ bs ≠ [] := by
    apply List.append_ne_nil_of_left_ne_nil
    apply List.ne_nil_of_length_pos
    omega
  rw [chunks, splitChunks_of_ne hk [] hne, splitChunks_eq hk, List.take_left' hchunk, List.drop_left' hchunk]
  rfl

theorem map_toNat_chunks {k : ℕ} (hk : 0 < k) {ws : List ℕ} (hws : ∀ w ∈ ws, w < 256 ^ k) :
    (chunks k (ws.flatMap (ofNat k))).map toNat = ws := by
  induction ws with
  | nil =>
    rw [List.flatMap_nil, chunks, splitChunks_of_empty]
    rfl
  | cons w ws ih =>
    rw [List.forall_mem_cons] at hws
    rw [List.flatMap_cons, chunks_append hk (length_ofNat k w), List.map_cons, toNat_ofNat k hws.1, ih hws.2]

theorem exists_flatMap_ofNat {k n : ℕ} {bs : Bytes} (hbs : bs.length = k * n) :
    ∃ ws : List ℕ, ws.length = n ∧ (∀ w ∈ ws, w < 256 ^ k) ∧ bs = ws.flatMap (ofNat k) := by
  induction n generalizing bs with
  | zero => exact ⟨[], rfl, by simp, List.eq_nil_of_length_eq_zero hbs⟩
  | succ n ih =>
    rw [Nat.mul_succ] at hbs
    have htake : (bs.take k).length = k := List.length_take_of_le (by omega)
    have hrest : (bs.drop k).length = k * n := by
      rw [List.length_drop]
      omega
    obtain ⟨ws, hlen, hws, hdrop⟩ := ih hrest
    have hfirst := ofNat_toNat (bs.take k)
    have hlt := toNat_lt (bs.take k)
    rw [htake] at hfirst hlt
    refine ⟨toNat (bs.take k) :: ws, by rw [List.length_cons, hlen], List.forall_mem_cons.mpr ⟨hlt, hws⟩, ?_⟩
    rw [List.flatMap_cons, hfirst, ← hdrop, List.take_append_drop]

end Bytes

theorem Keccak.length_unword (w : UInt64) : (unword w).length = 8 := by
  rw [unword, List.length_map, List.length_range]

theorem length_keccak256 (msg : Bytes) : (keccak256 msg).length = 32 := by
  simp [keccak256, List.length_flatMap, Keccak.length_unword]

end Settlement
