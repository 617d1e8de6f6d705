import Mathlib
import Settlement.Proofs.Bytes

/-!
The hash on numbers. A state of the sponge is packed into one number and the message into another, so that a round
takes a few hundred operations, and the digest is the same.
-/

namespace Settlement

namespace Bytes

def littleEndian (bs : Bytes) : ℕ :=
  bs.foldr (fun b n => b.toNat + 256 * n) 0

def swap : ℕ → ℕ → ℕ
  | 0, _ => 0
  | k + 1, n => n % 256 * 256 ^ k + swap k (n / 256)

theorem littleEndian_cons (b : UInt8) (bs : Bytes) :
    littleEndian (b :: bs) = b.toNat + 256 * littleEndian bs := rfl

theorem littleEndian_append (bs bs' : Bytes) :
    littleEndian (bs ++ bs') = littleEndian bs + 256 ^ bs.length * littleEndian bs' := by
  induction bs with
  | nil => simp [littleEndian]
  | cons b bs ih =>
    rw [List.cons_append, littleEndian_cons, littleEndian_cons, ih, List.length_cons]
    ring

theorem littleEndian_lt (bs : Bytes) : littleEndian bs < 256 ^ bs.length := by
  induction bs with
  | nil => decide
  | cons b bs ih =>
    have hb : b.toNat < 256 := b.toNat_lt
    rw [littleEndian_cons, List.length_cons, pow_succ]
    omega

theorem littleEndian_zeros (k : ℕ) : littleEndian (zeros k) = 0 := by
  induction k with
  | zero => rfl
  | succ k ih =>
    rw [zeros, List.replicate_succ, littleEndian_cons, ← zeros, ih]
    rfl

theorem littleEndian_ofNat (k n : ℕ) : littleEndian (ofNat k n) = swap k n := by
  induction k generalizing n with
  | zero => rfl
  | succ k ih =>
    rw [ofNat, littleEndian_append, ih, length_ofNat, swap, littleEndian_cons, UInt8.toNat_ofNat']
    simp only [littleEndian, List.foldr_nil]
    ring

theorem toNat_cons (b : UInt8) (bs : Bytes) : toNat (b :: bs) = b.toNat * 256 ^ bs.length + toNat bs := by
  induction bs using List.reverseRecOn with
  | nil => simp [toNat]
  | append_singleton bs b' ih =>
    rw [← List.cons_append, toNat_append_singleton, toNat_append_singleton, ih, List.length_append,
      List.length_singleton, pow_succ]
    ring

theorem toNat_eq_swap (bs : Bytes) : toNat bs = swap bs.length (littleEndian bs) := by
  induction bs with
  | nil => rfl
  | cons b bs ih =>
    have hb : b.toNat < 256 := b.toNat_lt
    have hlow : (b.toNat + 256 * littleEndian bs) % 256 = b.toNat := by omega
    have hhigh : (b.toNat + 256 * littleEndian bs) / 256 = littleEndian bs := by omega
    rw [toNat_cons, ih, List.length_cons, swap, littleEndian_cons, hlow, hhigh]

end Bytes

namespace Keccak.Packed

-- The kernel computes fastest with operations that are named instead of written, and with lists and numbers that are
-- taken apart by their recursors.

def lane (s i : ℕ) : ℕ :=
  Nat.mod (Nat.shiftRight s (Nat.mul 64 i)) (Nat.pow 2 64)

def rotate (w n : ℕ) : ℕ :=
  Nat.lor (Nat.mod (Nat.shiftLeft w n) (Nat.pow 2 64)) (Nat.shiftRight w (Nat.sub 64 n))

noncomputable def gather (s : ℕ) (ms : List (ℕ × ℕ)) : ℕ :=
  List.rec 0 (fun m _ n => Nat.lor (rotate (lane s m.1) m.2) (Nat.shiftLeft n 64)) ms

def inRows (d : ℕ) : ℕ :=
  Nat.lor (Nat.lor (Nat.lor (Nat.lor d (Nat.shiftLeft d 320)) (Nat.shiftLeft d 640)) (Nat.shiftLeft d 960))
    (Nat.shiftLeft d 1280)

def turn (s k : ℕ) : ℕ :=
  Nat.lor (Nat.land (Nat.shiftRight s (64 * k)) (inRows (2 ^ (64 * (5 - k)) - 1)))
    (Nat.land (Nat.shiftLeft s (64 * (5 - k))) (inRows (2 ^ (64 * 5) - 2 ^ (64 * (5 - k)))))

def parity (s : ℕ) : ℕ :=
  Nat.xor (Nat.xor (Nat.xor (Nat.xor s (Nat.shiftRight s 320)) (Nat.shiftRight s 640)) (Nat.shiftRight s 960))
    (Nat.shiftRight s 1280)

noncomputable def theta (s : ℕ) : ℕ :=
  Nat.xor s (inRows (Nat.xor (gather (parity s) [(4, 0), (0, 0), (1, 0), (2, 0), (3, 0)])
    (gather (parity s) [(1, 1), (2, 1), (3, 1), (4, 1), (0, 1)])))

def moves : List (ℕ × ℕ) :=
  [(0, 0), (6, 44), (12, 43), (18, 21), (24, 14),
   (3, 28), (9, 20), (10, 3), (16, 45), (22, 61),
   (1, 1), (7, 6), (13, 25), (19, 8), (20, 18),
   (4, 27), (5, 36), (11, 10), (17, 15), (23, 56),
   (2, 62), (8, 55), (14, 39), (15, 41), (21, 2)]

def chi (s : ℕ) : ℕ :=
  Nat.xor s (Nat.land (Nat.xor (turn s 1) (2 ^ (64 * 25) - 1)) (turn s 2))

noncomputable def round (s k : ℕ) : ℕ :=
  Nat.xor (chi (gather (theta s) moves)) k

noncomputable def permute (s : ℕ) : ℕ :=
  (roundConstants.map UInt64.toNat).foldl round s

noncomputable def absorbAll (k : ℕ) : ℕ → ℕ → ℕ :=
  Nat.rec (fun s _ => s) (fun _ next s n =>
    next (permute (Nat.xor s (Nat.mod n (2 ^ (64 * 17))))) (Nat.shiftRight n (64 * 17))) k

noncomputable def digest (k n : ℕ) : ℕ :=
  absorbAll (k / 136 + 1) 0 (n + 256 ^ k + 128 * 256 ^ (136 * (k / 136) + 135)) % 2 ^ 256

theorem lane_eq (s i : ℕ) : lane s i = s >>> (64 * i) % 2 ^ 64 := rfl

theorem rotate_eq (w n : ℕ) : rotate w n = w <<< n % 2 ^ 64 ||| w >>> (64 - n) := rfl

theorem gather_cons (s : ℕ) (m : ℕ × ℕ) (ms : List (ℕ × ℕ)) :
    gather s (m :: ms) = rotate (lane s m.1) m.2 ||| gather s ms <<< (64 * 1) := rfl

theorem inRows_eq (d : ℕ) :
    inRows d = d ||| d <<< (64 * 5) ||| d <<< (64 * 10) ||| d <<< (64 * 15) ||| d <<< (64 * 20) := rfl

theorem turn_eq (s k : ℕ) : turn s k = s >>> (64 * k) &&& inRows (2 ^ (64 * (5 - k)) - 1) |||
    s <<< (64 * (5 - k)) &&& inRows (2 ^ (64 * 5) - 2 ^ (64 * (5 - k))) := rfl

theorem parity_eq (s : ℕ) :
    parity s = s ^^^ s >>> (64 * 5) ^^^ s >>> (64 * 10) ^^^ s >>> (64 * 15) ^^^ s >>> (64 * 20) := rfl

theorem theta_eq (s : ℕ) : theta s = s ^^^ inRows (gather (parity s) [(4, 0), (0, 0), (1, 0), (2, 0), (3, 0)] ^^^
    gather (parity s) [(1, 1), (2, 1), (3, 1), (4, 1), (0, 1)]) := rfl

theorem chi_eq (s : ℕ) : chi s = s ^^^ ((turn s 1 ^^^ (2 ^ (64 * 25) - 1)) &&& turn s 2) := rfl

theorem round_eq (s k : ℕ) : round s k = chi (gather (theta s) moves) ^^^ k := rfl

theorem absorbAll_succ (k s n : ℕ) :
    absorbAll (k + 1) s n = absorbAll k (permute (s ^^^ n % 2 ^ (64 * 17))) (n >>> (64 * 17)) := rfl

def Fits (k s : ℕ) : Prop :=
  s < 2 ^ (64 * k)

section Fits

variable {k l s t : ℕ}

theorem Fits.mono (h : Fits k s) (hkl : k ≤ l) : Fits l s :=
  h.trans_le (Nat.pow_le_pow_right (by decide) (by omega))

theorem Fits.xor (hs : Fits k s) (ht : Fits k t) : Fits k (s ^^^ t) :=
  Nat.xor_lt_two_pow hs ht

theorem Fits.or (hs : Fits k s) (ht : Fits k t) : Fits k (s ||| t) :=
  Nat.or_lt_two_pow hs ht

theorem Fits.and (s : ℕ) (ht : Fits k t) : Fits k (s &&& t) :=
  Nat.and_lt_two_pow s ht

theorem Fits.shiftLeft (hs : Fits k s) (l : ℕ) : Fits (k + l) (s <<< (64 * l)) := by
  rw [Fits, Nat.mul_add]
  exact Nat.shiftLeft_lt hs

theorem Fits.add_mod (hs : Fits k s) (t : ℕ) : (s + 2 ^ (64 * k) * t) % 2 ^ (64 * k) = s := by
  rw [Nat.add_mul_mod_self_left, Nat.mod_eq_of_lt hs]

theorem Fits.add_shiftRight (hs : Fits k s) (t : ℕ) : (s + 2 ^ (64 * k) * t) >>> (64 * k) = t := by
  rw [Nat.shiftRight_eq_div_pow, Nat.add_mul_div_left _ _ (Nat.two_pow_pos _), Nat.div_eq_of_lt hs, Nat.zero_add]

theorem fits_zero (k : ℕ) : Fits k 0 := Nat.two_pow_pos _

theorem fits_toNat (w : UInt64) : Fits 1 w.toNat := w.toNat_lt

theorem fits_ones (k : ℕ) : Fits k (2 ^ (64 * k) - 1) :=
  Nat.sub_lt (by positivity) Nat.one_pos

theorem fits_inRows (h : Fits 5 s) : Fits 25 (inRows s) := by
  have hshift {l : ℕ} (hl : l ≤ 20) : Fits 25 (s <<< (64 * l)) := (h.shiftLeft l).mono (by omega)
  have hfirst : Fits 25 s := h.mono (by decide)
  rw [inRows_eq]
  apply Fits.or _ (hshift (by decide))
  apply Fits.or _ (hshift (by decide))
  apply Fits.or _ (hshift (by decide))
  exact hfirst.or (hshift (by decide))

end Fits

section Lanes

variable (s t i k : ℕ)

theorem fits_lane : Fits 1 (lane s i) :=
  Nat.mod_lt _ (by decide)

theorem testBit_lane (j : ℕ) : (lane s i).testBit j = (decide (j < 64) && s.testBit (64 * i + j)) := by
  rw [lane_eq, Nat.testBit_mod_two_pow, Nat.testBit_shiftRight]

theorem lane_xor : lane (s ^^^ t) i = lane s i ^^^ lane t i := by
  apply Nat.eq_of_testBit_eq
  intro j
  simp only [testBit_lane, Nat.testBit_xor]
  cases decide (j < 64) <;> simp

theorem lane_or : lane (s ||| t) i = lane s i ||| lane t i := by
  apply Nat.eq_of_testBit_eq
  intro j
  simp only [testBit_lane, Nat.testBit_or]
  cases decide (j < 64) <;> simp

theorem lane_and : lane (s &&& t) i = lane s i &&& lane t i := by
  apply Nat.eq_of_testBit_eq
  intro j
  simp only [testBit_lane, Nat.testBit_and]
  cases decide (j < 64) <;> simp

theorem lane_shiftRight : lane (s >>> (64 * k)) i = lane s (k + i) := by
  rw [lane_eq, lane_eq, ← Nat.shiftRight_add, ← Nat.mul_add]

theorem lane_shiftLeft : lane (s <<< (64 * k)) i = if i < k then 0 else lane s (i - k) := by
  apply Nat.eq_of_testBit_eq
  intro j
  rw [testBit_lane, Nat.testBit_shiftLeft]
  split
  · by_cases hj : j < 64
    · simp [show ¬64 * k ≤ 64 * i + j by omega]
    · simp [hj]
  · rename_i hk
    rw [testBit_lane]
    by_cases hj : j < 64
    · simp [show 64 * k ≤ 64 * i + j by omega, show 64 * i + j - 64 * k = 64 * (i - k) + j by omega]
    · simp [hj]

theorem lane_ones : lane (2 ^ (64 * k) - 1) i = if i < k then 2 ^ 64 - 1 else 0 := by
  apply Nat.eq_of_testBit_eq
  intro j
  rw [testBit_lane, Nat.testBit_two_pow_sub_one]
  split
  · rw [Nat.testBit_two_pow_sub_one]
    by_cases hj : j < 64
    · simp [hj, show 64 * i + j < 64 * k by omega]
    · simp [hj]
  · by_cases hj : j < 64
    · simp [show ¬64 * i + j < 64 * k by omega]
    · simp [hj]

variable {s i k}

theorem lane_eq_zero (h : Fits k s) (hk : k ≤ i) : lane s i = 0 := by
  rw [lane_eq, Nat.shiftRight_eq_div_pow, Nat.div_eq_of_lt (h.mono hk), Nat.zero_mod]

theorem lane_zero (h : Fits 1 s) : lane s 0 = s :=
  Nat.mod_eq_of_lt h

theorem and_ones (h : Fits 1 s) : s &&& (2 ^ 64 - 1) = s := by
  rw [Nat.and_two_pow_sub_one_eq_mod, Nat.mod_eq_of_lt h]

theorem shiftRight_width (h : Fits 1 s) : s >>> 64 = 0 := by
  rw [Nat.shiftRight_eq_div_pow, Nat.div_eq_of_lt h]

theorem rotate_zero (h : Fits 1 s) : rotate s 0 = s := by
  rw [rotate_eq, Nat.shiftLeft_zero, Nat.mod_eq_of_lt h, Nat.sub_zero, shiftRight_width h, Nat.or_zero]

theorem fits_rotate (h : Fits 1 s) (n : ℕ) : Fits 1 (rotate s n) := by
  have hright : Fits 1 (s >>> (64 - n)) := (Nat.shiftRight_le s _).trans_lt h
  exact Nat.or_lt_two_pow (Nat.mod_lt _ (by decide)) hright

end Lanes

theorem fits_gather (s : ℕ) (ms : List (ℕ × ℕ)) : Fits ms.length (gather s ms) := by
  induction ms with
  | nil => exact Nat.one_pos
  | cons m ms ih =>
    have hfirst := fits_rotate (fits_lane s m.1) m.2
    rw [gather_cons, List.length_cons]
    exact (hfirst.mono (by omega)).or (ih.shiftLeft 1)

theorem lane_gather (s : ℕ) (ms : List (ℕ × ℕ)) {i : ℕ} (hi : i < ms.length) :
    lane (gather s ms) i = rotate (lane s ms[i].1) ms[i].2 := by
  induction ms generalizing i with
  | nil => cases hi
  | cons m ms ih =>
    have hfirst := fits_rotate (fits_lane s m.1) m.2
    rw [gather_cons, lane_or, lane_shiftLeft]
    cases i with
    | zero => simp [lane_zero hfirst]
    | succ i =>
      have hlater : lane (rotate (lane s m.1) m.2) (i + 1) = 0 := lane_eq_zero hfirst (by omega)
      simpa [hlater] using ih (Nat.lt_of_succ_lt_succ hi)

theorem lane_inRows {d i : ℕ} (hd : Fits 5 d) (hi : i < 25) : lane (inRows d) i = lane d (i % 5) := by
  have hbeyond {j : ℕ} (hj : 5 ≤ j) : lane d j = 0 := lane_eq_zero hd hj
  simp only [inRows_eq, lane_or, lane_shiftLeft]
  interval_cases i <;> simp [hbeyond]

theorem fits_masks (k : ℕ) : Fits 5 (2 ^ (64 * (5 - k)) - 1) ∧ Fits 5 (2 ^ (64 * 5) - 2 ^ (64 * (5 - k))) := by
  constructor
  · exact (fits_ones _).mono (by omega)
  · exact Nat.sub_lt (by positivity) (by positivity)

theorem fits_turn (s k : ℕ) : Fits 25 (turn s k) := by
  obtain ⟨hlow, hhigh⟩ := fits_masks k
  rw [turn_eq]
  exact (Fits.and _ (fits_inRows hlow)).or (Fits.and _ (fits_inRows hhigh))

theorem lane_turn (s : ℕ) {k i : ℕ} (hk : k = 1 ∨ k = 2) (hi : i < 25) :
    lane (turn s k) i = lane s ((i % 5 + k) % 5 + 5 * (i / 5)) := by
  obtain ⟨hfitsLow, hfitsHigh⟩ := fits_masks k
  have hlow : lane (inRows (2 ^ (64 * (5 - k)) - 1)) i = if i % 5 < 5 - k then 2 ^ 64 - 1 else 0 := by
    rw [lane_inRows hfitsLow hi, lane_ones]
  have hhigh : lane (inRows (2 ^ (64 * 5) - 2 ^ (64 * (5 - k)))) i = if i % 5 < 5 - k then 0 else 2 ^ 64 - 1 := by
    have hx : i % 5 < 5 := Nat.mod_lt _ (by decide)
    rw [lane_inRows hfitsHigh hi]
    generalize i % 5 = x at hx
    obtain rfl | rfl := hk <;> interval_cases x <;> decide +kernel
  rw [turn_eq, lane_or, lane_and, lane_and, hlow, hhigh, lane_shiftRight, lane_shiftLeft]
  by_cases hx : i % 5 < 5 - k
  · rw [if_pos hx, if_pos hx, and_ones (fits_lane ..), Nat.and_zero, Nat.or_zero]
    congr 1
    omega
  · rw [if_neg hx, if_neg hx, Nat.and_zero, Nat.zero_or, if_neg (by omega), and_ones (fits_lane ..)]
    congr 1
    omega

theorem toNat_rotate (w : UInt64) {n : UInt64} (hn : n.toNat < 64) :
    (Keccak.rotate w n).toNat = rotate w.toNat n.toNat := by
  unfold Keccak.rotate
  split
  · rename_i h
    rw [h, UInt64.toNat_zero, rotate_zero (fits_toNat w)]
  · rename_i h
    have hpos : 0 < n.toNat := by
      apply Nat.pos_of_ne_zero
      intro h0
      exact h (UInt64.toNat_inj.mp h0)
    have hsub : (64 - n).toNat = 64 - n.toNat := UInt64.toNat_sub_of_le _ _ (UInt64.le_iff_toNat_le.mpr hn.le)
    have hrest : (64 - n.toNat) % 64 = 64 - n.toNat := Nat.mod_eq_of_lt (by omega)
    rw [UInt64.toNat_or, UInt64.toNat_shiftLeft, UInt64.toNat_shiftRight, hsub, hrest, Nat.mod_eq_of_lt hn, rotate_eq]

theorem toNat_not (w : UInt64) : (~~~w).toNat = w.toNat ^^^ (2 ^ 64 - 1) := by
  change (~~~w.toBitVec).toNat = w.toBitVec.toNat ^^^ (BitVec.allOnes 64).toNat
  rw [← BitVec.toNat_xor, BitVec.xor_allOnes]

theorem moves_exact : ∀ i (hi : i < 25),
    moves[i] = ((i % 5 + 3 * (i / 5)) % 5 + 5 * (i % 5), (Keccak.lane offsets (i % 5 + 3 * (i / 5)) (i % 5)).toNat) ∧
      (Keccak.lane offsets (i % 5 + 3 * (i / 5)) (i % 5)).toNat < 64 := by
  decide +kernel

theorem getElem_ofLanes (f : ℕ → ℕ → UInt64) {i : ℕ} (hi : i < 25) : (ofLanes f)[i] = f (i % 5) (i / 5) :=
  Vector.getElem_ofFn _

structure Packs (a : Lanes) (s : ℕ) : Prop where
  fits : Fits 25 s
  lane : ∀ i (hi : i < 25), lane s i = a[i].toNat

namespace Packs

variable {a : Lanes} {s : ℕ}

section Round

variable (h : Packs a s)

include h

theorem toNat_lane (x y : ℕ) : (Keccak.lane a x y).toNat = Packed.lane s (x % 5 + 5 * (y % 5)) :=
  (h.lane _ (by omega)).symm

theorem lane_parity (x : ℕ) : (Keccak.lane a x 0 ^^^ Keccak.lane a x 1 ^^^ Keccak.lane a x 2 ^^^ Keccak.lane a x 3 ^^^
    Keccak.lane a x 4).toNat = Packed.lane (parity s) (x % 5) := by
  simp only [parity_eq, lane_xor, lane_shiftRight, UInt64.toNat_xor, h.toNat_lane]
  simp [Nat.add_comm]

theorem theta : Packs (Keccak.theta a) (theta s) := by
  have hfits := (fits_gather (parity s) [(4, 0), (0, 0), (1, 0), (2, 0), (3, 0)]).xor
    (fits_gather (parity s) [(1, 1), (2, 1), (3, 1), (4, 1), (0, 1)])
  refine ⟨h.fits.xor (fits_inRows hfits), ?_⟩
  intro i hi
  have hrotate (w : UInt64) : (Keccak.rotate w 1).toNat = rotate w.toNat 1 := toNat_rotate w (by decide)
  have hx : i % 5 < 5 := Nat.mod_lt _ (by decide)
  have hplace : i % 5 % 5 + 5 * (i / 5 % 5) = i := by omega
  rw [theta_eq, lane_xor, lane_inRows hfits hi, lane_xor, Keccak.theta, getElem_ofLanes _ hi, UInt64.toNat_xor,
    h.toNat_lane, hplace]
  congr 1
  simp only [Vector.getElem_ofFn, UInt64.toNat_xor _ (Keccak.rotate _ _), hrotate, h.lane_parity]
  generalize i % 5 = x at hx
  interval_cases x <;>
    rw [lane_gather _ _ (by decide), lane_gather _ _ (by decide)] <;> simp [rotate_zero (fits_lane ..)]

theorem rhoPi : Packs (Keccak.rhoPi a) (gather s moves) where
  fits := fits_gather s moves
  lane i hi := by
    obtain ⟨hmove, hlt⟩ := moves_exact i hi
    rw [lane_gather s moves hi, hmove, Keccak.rhoPi, getElem_ofLanes _ hi, toNat_rotate _ hlt, h.toNat_lane, Nat.mod_mod]

theorem chi : Packs (Keccak.chi a) (chi s) where
  fits := h.fits.xor (Fits.and _ (fits_turn s 2))
  lane i hi := by
    have hplace : i % 5 % 5 + 5 * (i / 5 % 5) = i := by omega
    have hrow : i / 5 % 5 = i / 5 := Nat.mod_eq_of_lt (by omega)
    rw [chi_eq, lane_xor, lane_and, lane_xor, lane_turn s (.inl rfl) hi, lane_turn s (.inr rfl) hi, lane_ones, if_pos hi,
      Keccak.chi, getElem_ofLanes _ hi, UInt64.toNat_xor, UInt64.toNat_and, toNat_not, h.toNat_lane, h.toNat_lane,
      h.toNat_lane, hplace, hrow]

theorem round (k : UInt64) : Packs (Keccak.round a k) (round s k.toNat) := by
  have hb := h.theta.rhoPi.chi
  refine ⟨hb.fits.xor ((fits_toNat k).mono (by decide)), ?_⟩
  intro i hi
  rw [round_eq, lane_xor, hb.lane i hi, Keccak.round, Vector.getElem_set]
  split
  · rename_i h0
    subst h0
    rw [UInt64.toNat_xor, lane_zero (fits_toNat k)]
  · rename_i h0
    rw [lane_eq_zero (fits_toNat k) (by omega), Nat.xor_zero]

end Round

theorem permute (h : Packs a s) : Packs (Keccak.permute a) (permute s) := by
  rw [Keccak.permute, Packed.permute, List.foldl_map]
  generalize roundConstants = ks
  induction ks generalizing a s with
  | nil => exact h
  | cons k ks ih =>
    rw [List.foldl_cons, List.foldl_cons]
    exact ih (h.round k)

end Packs

section Sponge

theorem toNat_word {bs : Bytes} (h : bs.length ≤ 8) : (word bs).toNat = Bytes.littleEndian bs := by
  induction bs with
  | nil => rfl
  | cons b bs ih =>
    rw [List.length_cons] at h
    have hlt : Bytes.littleEndian bs < 256 ^ 7 :=
      (Bytes.littleEndian_lt bs).trans_le (Nat.pow_le_pow_right (by decide) (by omega))
    have hb : b.toNat < 2 ^ 8 := b.toNat_lt
    have hword : word (b :: bs) = word bs <<< 8 ||| b.toUInt64 := rfl
    have hfits : Bytes.littleEndian bs <<< 8 < 2 ^ 64 := by
      rw [Nat.shiftLeft_eq]
      omega
    rw [hword, UInt64.toNat_or, UInt64.toNat_shiftLeft, ih (by omega), Bytes.littleEndian_cons, UInt8.toNat_toUInt64]
    change Bytes.littleEndian bs <<< 8 % 2 ^ 64 ||| b.toNat = _
    rw [Nat.mod_eq_of_lt hfits, ← Nat.shiftLeft_add_eq_or_of_lt hb, Nat.shiftLeft_eq]
    ring

theorem toNat_words (n : ℕ) {bs : Bytes} (h : bs.length = 8 * n) (i : ℕ) :
    (((Bytes.chunks 8 bs).map word).getD i 0).toNat = lane (Bytes.littleEndian bs) i := by
  induction n generalizing bs i with
  | zero =>
    obtain rfl := List.eq_nil_of_length_eq_zero h
    rw [Bytes.chunks, Bytes.splitChunks_of_empty]
    exact (lane_eq_zero (fits_zero 0) (Nat.zero_le i)).symm
  | succ n ih =>
    have hfirst : (bs.take 8).length = 8 := List.length_take_of_le (by omega)
    have hrest : (bs.drop 8).length = 8 * n := by
      rw [List.length_drop]
      omega
    have hlt := Bytes.littleEndian_lt (bs.take 8)
    rw [hfirst] at hlt
    rw [← List.take_append_drop 8 bs, Bytes.chunks_append (by decide) hfirst, Bytes.littleEndian_append, hfirst,
      List.map_cons]
    cases i with
    | zero =>
      rw [List.getD_cons_zero, toNat_word hfirst.le, lane_eq, Nat.mul_zero, Nat.shiftRight_zero]
      omega
    | succ i =>
      have hshift : 64 * (i + 1) = 64 + 64 * i := by omega
      rw [List.getD_cons_succ, ih hrest, lane_eq, lane_eq, hshift, Nat.shiftRight_add]
      congr 2
      rw [Nat.shiftRight_eq_div_pow]
      omega

theorem pow_rate : 256 ^ rate = 2 ^ (64 * 17) := by
  rw [rate, show 256 = 2 ^ 8 from rfl, ← pow_mul]

theorem fits_block {block : Bytes} (h : block.length = rate) : Fits 17 (Bytes.littleEndian block) := by
  rw [Fits, ← pow_rate, ← h]
  exact Bytes.littleEndian_lt block

theorem Packs.absorb {a : Lanes} {s : ℕ} (h : Packs a s) {block : Bytes} (hblock : block.length = rate) :
    Packs (Keccak.absorb a block) (Packed.permute (s ^^^ Bytes.littleEndian block)) := by
  apply Packs.permute
  refine ⟨h.fits.xor ((fits_block hblock).mono (by decide)), ?_⟩
  intro i hi
  rw [lane_xor, h.lane i hi, Vector.getElem_ofFn, UInt64.toNat_xor, ← toNat_words 17 hblock]
  simp

theorem Packs.absorbAll {a : Lanes} {s : ℕ} (h : Packs a s) (k : ℕ) {bs : Bytes} (hbs : bs.length = rate * k) :
    Packs ((Bytes.chunks rate bs).foldl Keccak.absorb a) (absorbAll k s (Bytes.littleEndian bs)) := by
  induction k generalizing a s bs with
  | zero =>
    obtain rfl := List.eq_nil_of_length_eq_zero hbs
    rw [Bytes.chunks, Bytes.splitChunks_of_empty]
    exact h
  | succ k ih =>
    rw [Nat.mul_succ] at hbs
    have hfirst : (bs.take rate).length = rate := List.length_take_of_le (by omega)
    have hrest : (bs.drop rate).length = rate * k := by
      rw [List.length_drop]
      omega
    have hfits := fits_block hfirst
    rw [← List.take_append_drop rate bs, Bytes.chunks_append (by decide) hfirst, Bytes.littleEndian_append, hfirst,
      pow_rate, List.foldl_cons, absorbAll_succ, hfits.add_mod, hfits.add_shiftRight]
    exact ih (h.absorb hfirst) hrest

theorem pad_cases (msg : Bytes) :
    msg.length % 136 = 135 ∧ pad msg = msg ++ [0x81] ∨
      msg.length % 136 ≠ 135 ∧ pad msg = msg ++ (0x01 :: Bytes.zeros (134 - msg.length % 136)) ++ [0x80] := by
  -- the padding is a single byte if only one is left in the block, otherwise two bytes with zeros between
  by_cases hgap : msg.length % 136 = 135
  · exact .inl ⟨hgap, if_pos (by rw [rate]; omega)⟩
  · refine .inr ⟨hgap, (if_neg (by rw [rate]; omega)).trans ?_⟩
    rw [rate, show 136 - msg.length % 136 - 2 = 134 - msg.length % 136 by omega]

theorem length_pad (msg : Bytes) : (pad msg).length = rate * (msg.length / 136 + 1) := by
  obtain ⟨hgap, hpad⟩ | ⟨hgap, hpad⟩ := pad_cases msg
  · rw [hpad, List.length_append, List.length_singleton, rate]
    omega
  · simp only [hpad, List.length_append, List.length_cons, Bytes.zeros, List.length_replicate, List.length_nil, rate]
    omega

theorem littleEndian_pad (msg : Bytes) : Bytes.littleEndian (pad msg) =
    Bytes.littleEndian msg + 256 ^ msg.length + 128 * 256 ^ (136 * (msg.length / 136) + 135) := by
  have hsingle (b : UInt8) : Bytes.littleEndian [b] = b.toNat := rfl
  obtain ⟨hgap, hpad⟩ | ⟨hgap, hpad⟩ := pad_cases msg
  · have hlast : 136 * (msg.length / 136) + 135 = msg.length := by omega
    rw [hpad, hlast, Bytes.littleEndian_append, hsingle]
    change _ + _ * 129 = _
    ring
  · have hlast : 136 * (msg.length / 136) + 135 = msg.length + (134 - msg.length % 136 + 1) := by omega
    rw [hpad, hlast, Bytes.littleEndian_append, Bytes.littleEndian_append, Bytes.littleEndian_cons,
      Bytes.littleEndian_zeros, hsingle, List.length_append, List.length_cons, Bytes.zeros, List.length_replicate]
    change _ + _ * 1 + _ * 128 = _
    ring

theorem littleEndian_unword (w : UInt64) : Bytes.littleEndian (unword w) = w.toNat := by
  have hw : w.toNat < 2 ^ 64 := w.toNat_lt
  simp [unword, List.range_succ, Bytes.littleEndian, Nat.shiftRight_eq_div_pow]
  omega

theorem Packs.digest {a : Lanes} {s : ℕ} (h : Packs a s) :
    Bytes.littleEndian ((a.toList.take 4).flatMap unword) = s % 2 ^ 256 := by
  have hfirst : a.toList.take 4 = [a[0], a[1], a[2], a[3]] := by
    apply List.ext_getElem
    · simp
    · intro i hi _
      have hi : i < 4 := by simpa using hi
      interval_cases i <;> simp
  have h0 := h.lane 0 (by decide)
  have h1 := h.lane 1 (by decide)
  have h2 := h.lane 2 (by decide)
  have h3 := h.lane 3 (by decide)
  simp only [lane_eq, Nat.shiftRight_eq_div_pow] at h0 h1 h2 h3
  simp only [hfirst, List.flatMap_cons, List.flatMap_nil, List.append_nil, Bytes.littleEndian_append, length_unword,
    littleEndian_unword, ← h0, ← h1, ← h2, ← h3]
  omega

theorem packs_zero : Packs (Vector.replicate 25 0) 0 := by
  refine ⟨fits_zero 25, ?_⟩
  intro i hi
  rw [lane_eq_zero (fits_zero 0) (Nat.zero_le i), Vector.getElem_replicate]
  rfl

end Sponge

end Keccak.Packed

theorem littleEndian_keccak256 (msg : Bytes) :
    Bytes.littleEndian (keccak256 msg) = Keccak.Packed.digest msg.length (Bytes.littleEndian msg) := by
  rw [Keccak.Packed.digest, ← Keccak.Packed.littleEndian_pad]
  exact (Keccak.Packed.packs_zero.absorbAll _ (Keccak.Packed.length_pad msg)).digest

theorem toNat_keccak256 (msg : Bytes) :
    Bytes.toNat (keccak256 msg) = Bytes.swap 32 (Keccak.Packed.digest msg.length (Bytes.littleEndian msg)) := by
  rw [Bytes.toNat_eq_swap, length_keccak256, littleEndian_keccak256]

example : Bytes.toNat (keccak256 (Bytes.ofString "")) =
    0xc5d2460186f7233c927e7db2dcc703c0e500b653ca82273b7bfad8045d85a470 := by
  rw [toNat_keccak256]
  decide +kernel

end Settlement
