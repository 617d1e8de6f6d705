import Mathlib
import Settlement.Proofs.Bytes
import Settlement.Transcript

/-!
A transcript binds the words that it absorbed: two lists of words that end in one state are equal, or two
different strings hashed on the way have one hash.
-/

namespace Settlement

def Collision (hashed : List Bytes) : Prop :=
  ∃ a ∈ hashed, ∃ b ∈ hashed, a ≠ b ∧ keccak256 a = keccak256 b

theorem Collision.mono {hashed hashed' : List Bytes} (h : Collision hashed) (hsub : hashed ⊆ hashed') :
    Collision hashed' := by
  obtain ⟨a, ha, b, hb, hne, hhash⟩ := h
  exact ⟨a, hsub ha, b, hsub hb, hne, hhash⟩

theorem eq_or_collision {hashed : List Bytes} {a b : Bytes} (ha : a ∈ hashed) (hb : b ∈ hashed)
    (h : keccak256 a = keccak256 b) : a = b ∨ Collision hashed := by
  by_cases hab : a = b
  · exact .inl hab
  · exact .inr ⟨a, ha, b, hb, hab, h⟩

namespace Transcript

def absorbAll (t : Transcript) (ws : List Bytes) : Transcript :=
  ws.foldl absorb t

def preimages (t : Transcript) : List Bytes → List Bytes
  | [] => []
  | w :: ws => t.preimage 0 w :: t.preimage 1 w :: preimages (t.absorb w) ws

theorem absorbAll_append (t : Transcript) (ws ws' : List Bytes) :
    t.absorbAll (ws ++ ws') = (t.absorbAll ws).absorbAll ws' :=
  List.foldl_append

theorem absorbAll_counter (t : Transcript) (n : ℕ) (ws : List Bytes) :
    { t with counter := n }.absorbAll ws = { t.absorbAll ws with counter := n } := by
  induction ws generalizing t with
  | nil => rfl
  | cons w ws ih => exact ih (t.absorb w)

theorem preimages_append (t : Transcript) (ws ws' : List Bytes) :
    t.preimages (ws ++ ws') = t.preimages ws ++ (t.absorbAll ws).preimages ws' := by
  induction ws generalizing t with
  | nil => rfl
  | cons w ws ih => simp only [List.cons_append, preimages, ih, absorbAll, List.foldl_cons]

structure Wide (t : Transcript) : Prop where
  state0 : t.state0.length = 32
  state1 : t.state1.length = 32

theorem wide_start : start.Wide := ⟨rfl, rfl⟩

theorem wide_absorb (t : Transcript) (w : Bytes) : (t.absorb w).Wide :=
  ⟨length_keccak256 _, length_keccak256 _⟩

theorem Wide.absorbAll {t : Transcript} (ht : t.Wide) (ws : List Bytes) : (t.absorbAll ws).Wide := by
  induction ws generalizing t with
  | nil => exact ht
  | cons w ws ih => exact ih (wide_absorb t w)

def SameState (t t' : Transcript) : Prop :=
  t.state0 = t'.state0 ∧ t.state1 = t'.state1

theorem preimage_inj {t t' : Transcript} (ht : t.Wide) (ht' : t'.Wide) {m n : ℕ} {w w' : Bytes}
    (h : t.preimage m w = t'.preimage n w') : tag m = tag n ∧ SameState t t' ∧ w = w' := by
  have htag : (tag m).length = (tag n).length := by rw [tag, tag, Bytes.length_ofNat, Bytes.length_ofNat]
  simp only [preimage, List.append_assoc] at h
  obtain ⟨htags, h⟩ := List.append_inj h htag
  obtain ⟨h0, h⟩ := List.append_inj h (ht.state0.trans ht'.state0.symm)
  obtain ⟨h1, hw⟩ := List.append_inj h (ht.state1.trans ht'.state1.symm)
  exact ⟨htags, ⟨h0, h1⟩, hw⟩

section Binding

variable {hashed : List Bytes}

theorem collision_of_start {ws : List Bytes} {w : Bytes} (hsub : start.preimages (ws ++ [w]) ⊆ hashed)
    (h : SameState start (start.absorbAll (ws ++ [w]))) : Collision hashed := by
  -- no words lead back to the state of a new transcript, since the two state words are hashes under different tags
  have ht := wide_start.absorbAll ws
  rw [preimages_append] at hsub
  rw [absorbAll_append] at h
  have h0 := hsub (List.mem_append_right _ (List.mem_cons_self ..))
  have h1 := hsub (List.mem_append_right _ (List.mem_cons_of_mem _ (List.mem_cons_self ..)))
  refine (eq_or_collision h0 h1 (h.1.symm.trans h.2)).resolve_left fun heq => ?_
  exact absurd (preimage_inj ht ht heq).1 (by decide)

theorem step_or_collision {t t' : Transcript} (ht : t.Wide) (ht' : t'.Wide) {w w' : Bytes}
    (hsub : t.preimages [w] ⊆ hashed) (hsub' : t'.preimages [w'] ⊆ hashed)
    (h : SameState (t.absorb w) (t'.absorb w')) : SameState t t' ∧ w = w' ∨ Collision hashed := by
  have hmem := hsub (List.mem_cons_self ..)
  have hmem' := hsub' (List.mem_cons_self ..)
  obtain heq | hcollision := eq_or_collision hmem hmem' h.1
  · exact .inl (preimage_inj ht ht' heq).2
  · exact .inr hcollision

theorem absorbAll_or_collision {ws ws' : List Bytes} (hsub : start.preimages ws ⊆ hashed)
    (hsub' : start.preimages ws' ⊆ hashed) (h : SameState (start.absorbAll ws) (start.absorbAll ws')) :
    ws = ws' ∨ Collision hashed := by
  induction ws using List.reverseRecOn generalizing ws' with
  | nil =>
    cases ws' using List.reverseRecOn with
    | nil => exact .inl rfl
    | append_singleton ws' w' => exact .inr (collision_of_start hsub' h)
  | append_singleton ws w ih =>
    cases ws' using List.reverseRecOn with
    | nil => exact .inr (collision_of_start hsub ⟨h.1.symm, h.2.symm⟩)
    | append_singleton ws' w' =>
      rw [preimages_append, List.append_subset] at hsub hsub'
      rw [absorbAll_append, absorbAll_append] at h
      have hstep := step_or_collision (wide_start.absorbAll ws) (wide_start.absorbAll ws') hsub.2 hsub'.2 h
      obtain ⟨hstate, rfl⟩ | hcollision := hstep
      · obtain rfl | hcollision := ih hsub.1 hsub'.1 hstate
        · exact .inl rfl
        · exact .inr hcollision
      · exact .inr hcollision

end Binding

end Transcript

end Settlement
