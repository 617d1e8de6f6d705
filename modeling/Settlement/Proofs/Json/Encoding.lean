import Mathlib
import Settlement.Json.Typed
import Settlement.Proofs.Text.Utf8

/-!
Strings in an exact text that is UTF-8 are UTF-8 themselves, as quotes, backslashes and digits are bytes below 128
and escapes stand for characters. A typed reader so meets no string of another encoding there.
-/

namespace Settlement

open Bytes

theorem Hex.digit?_eq_some {c : Char} {k : ℕ} (h : digit? c = some k) : c.toNat < 128 ∧ k < 16 := by
  have hle (a b : Char) (hab : a ≤ b) : a.toNat ≤ b.toNat := hab
  unfold digit? at h
  split at h
  · rename_i hc
    have h9 : c.toNat ≤ 57 := hle _ _ hc.2
    obtain rfl := Option.some.inj h
    omega
  · split at h
    · rename_i hc
      have hf : c.toNat ≤ 102 := hle _ _ hc.2
      obtain rfl := Option.some.inj h
      omega
    · split at h
      · rename_i hc
        have hf : c.toNat ≤ 70 := hle _ _ hc.2
        obtain rfl := Option.some.inj h
        omega
      · cases h

namespace Json

section Scanners

variable {bs rest : Bytes}

theorem isUtf8_utf8 {n : ℕ} (hn : n.isValidChar) : IsUtf8 (Text.utf8 n) := by
  have hval : (Char.ofNat n).val.toNat = n := (Char.toNat_ofNat n).trans (if_pos hn)
  have henc : Text.utf8 n = String.utf8EncodeChar (Char.ofNat n) := by
    have hlt : n < 0x110000 := by
      simp only [Nat.isValidChar] at hn
      omega
    rw [String.utf8EncodeChar, hval, Text.utf8]
    by_cases h1 : n < 0x80
    · rw [if_pos h1, if_pos (by omega)]
    by_cases h2 : n < 0x800
    · rw [if_neg h1, if_pos h2, if_neg (by omega), if_pos (by omega), List.cons.injEq, List.cons.injEq]
      exact ⟨congrArg UInt8.ofNat (by omega), congrArg UInt8.ofNat (by omega), rfl⟩
    by_cases h3 : n < 0x10000
    · rw [if_neg h1, if_neg h2, if_pos h3, if_neg (by omega), if_neg (by omega), if_pos (by omega),
        List.cons.injEq, List.cons.injEq, List.cons.injEq]
      exact ⟨congrArg UInt8.ofNat (by omega), congrArg UInt8.ofNat (by omega),
        congrArg UInt8.ofNat (by omega), rfl⟩
    · rw [if_neg h1, if_neg h2, if_neg h3, if_neg (by omega), if_neg (by omega), if_neg (by omega),
        List.cons.injEq, List.cons.injEq, List.cons.injEq, List.cons.injEq]
      exact ⟨congrArg UInt8.ofNat (by omega), congrArg UInt8.ofNat (by omega),
        congrArg UInt8.ofNat (by omega), congrArg UInt8.ofNat (by omega), rfl⟩
  rw [henc]
  exact isUtf8_encodeChar _

theorem hexValue?_eq_some {a b c e : UInt8} {n : ℕ} (h : hexValue? a b c e = some n) :
    (∀ x ∈ [a, b, c, e], x.toNat < 128) ∧ n < 0x10000 := by
  have hascii (x : UInt8) : (Char.ofNat x.toNat).toNat = x.toNat := by
    have hx := x.toNat_lt
    rw [Char.toNat_ofNat, if_pos]
    exact .inl (by omega)
  simp only [hexValue?, Hex.toNat?, List.map_cons, List.map_nil, List.foldl_cons, List.foldl_nil,
    Option.bind_eq_bind, Option.bind_eq_some_iff, Option.pure_def, Option.some.injEq] at h
  obtain ⟨_, ⟨_, ⟨_, ⟨_, rfl, ka, ha, rfl⟩, kb, hb, rfl⟩, kc, hc, rfl⟩, ke, he, rfl⟩ := h
  have hda := Hex.digit?_eq_some ha
  have hdb := Hex.digit?_eq_some hb
  have hdc := Hex.digit?_eq_some hc
  have hde := Hex.digit?_eq_some he
  rw [hascii] at hda hdb hdc hde
  refine ⟨?_, by omega⟩
  simp only [List.forall_mem_cons, List.not_mem_nil, false_imp_iff, implies_true, and_true]
  exact ⟨hda.1, hdb.1, hdc.1, hde.1⟩

theorem simpleEscape?_eq_some {b c : UInt8} (h : simpleEscape? b = some c) : b.toNat < 128 ∧ c.toNat < 128 := by
  unfold simpleEscape? at h
  split_ifs at h with h1 h2 h3 h4 h5 h6
  · obtain rfl := Option.some.inj h
    obtain rfl | rfl | rfl := h1 <;> decide
  all_goals
    subst b
    obtain rfl := Option.some.inj h
    decide

theorem unicodeEscape?_utf8 {n m : ℕ} (hn : n < 0x10000) (hbs : IsUtf8 bs)
    (h : unicodeEscape? .exact n bs = some (m, rest)) : m.isValidChar ∧ IsUtf8 rest := by
  unfold unicodeEscape? at h
  simp only [reduceCtorEq, ↓reduceIte] at h
  split at h
  · obtain ⟨rfl, rfl⟩ := Prod.mk.inj (Option.some.inj h)
    refine ⟨?_, hbs⟩
    simp only [Nat.isValidChar]
    omega
  split at h
  · cases h
  split at h
  · rename_i _ a b c e more
    split at h
    · rename_i k hk
      split at h
      · obtain ⟨rfl, rfl⟩ := Prod.mk.inj (Option.some.inj h)
        have hdigits := (hexValue?_eq_some hk).1
        refine ⟨.inr (by omega), ?_⟩
        exact IsUtf8.of_append hdigits ((hbs.tail (by decide)).tail (by decide))
      · cases h
    · cases h
  · cases h

theorem scanString_utf8 {fuel : ℕ} {acc s : Bytes} (h : IsUtf8 (acc.reverse ++ bs))
    (hscan : scanString .exact fuel acc bs = some (s, rest)) : IsUtf8 s ∧ IsUtf8 rest := by
  fun_induction scanString .exact fuel acc bs with
  | case1 => cases hscan
  | case2 => cases hscan
  | case3 fuel acc more =>
    obtain ⟨rfl, rfl⟩ := Prod.mk.inj (Option.some.inj hscan)
    exact h.split (b := 34) (by decide)
  | case4 => cases hscan
  | case5 fuel acc b more _ _ _ ih =>
    apply ih _ hscan
    rwa [List.reverse_cons, List.append_assoc]
  | case6 fuel acc b _ _ hb h1 h2 h3 h4 more n more' hescape ih =>
    obtain rfl := not_not.mp hb
    obtain ⟨hacc, hmore⟩ := h.split (b := 92) (by decide)
    obtain ⟨k, hk, hunicode⟩ := Option.bind_eq_some_iff.mp hescape
    obtain ⟨hdigits, hlt⟩ := hexValue?_eq_some hk
    have hbehind : IsUtf8 more := IsUtf8.of_append hdigits (hmore.tail (by decide))
    obtain ⟨hn, hmore'⟩ := unicodeEscape?_utf8 hlt hbehind hunicode
    apply ih _ hscan
    rw [List.reverse_append, List.reverse_reverse]
    exact (hacc.append (isUtf8_utf8 hn)).append hmore'
  | case7 => cases hscan
  | case8 fuel acc b _ _ hb e more _ c hc ih =>
    obtain rfl := not_not.mp hb
    obtain ⟨hacc, hmore⟩ := h.split (b := 92) (by decide)
    obtain ⟨he, hlt⟩ := simpleEscape?_eq_some hc
    apply ih _ hscan
    rw [List.reverse_cons]
    exact (hacc.append (isUtf8_singleton hlt)).append (hmore.tail he)
  | case9 => cases hscan
  | case10 => cases hscan

theorem isSpace_lt {b : UInt8} (h : isSpace b = true) : b.toNat < 128 := by
  simp only [isSpace, Bool.or_eq_true, beq_iff_eq] at h
  obtain ((rfl | rfl) | rfl) | rfl := h <;> decide

theorem isDigit_lt {b : UInt8} (h : isDigit b = true) : b.toNat < 128 := by
  simp only [isDigit, Bool.and_eq_true, decide_eq_true_eq, UInt8.le_iff_toNat_le] at h
  exact h.2.trans_lt (by decide)

theorem skipSpace_utf8 (h : IsUtf8 bs) : IsUtf8 (skipSpace bs) :=
  h.dropWhile fun _ => isSpace_lt

theorem dropDigits_utf8 (h : IsUtf8 bs) : IsUtf8 (bs.dropWhile isDigit) :=
  h.dropWhile fun _ => isDigit_lt

theorem expect_utf8 {word : String} (hword : ∀ c ∈ word.toList, c.toNat < 128) (h : IsUtf8 bs)
    (hexpect : expect word bs = some rest) : IsUtf8 rest := by
  unfold expect at hexpect
  simp only at hexpect
  split at hexpect
  · rename_i hpre
    obtain ⟨ys, rfl⟩ := List.isPrefixOf_iff_prefix.mp hpre
    obtain rfl := Option.some.inj hexpect
    rw [List.drop_left]
    exact h.of_append (lt_of_mem_ofString hword)
  · cases hexpect

theorem scanFraction_utf8 {ds : Bytes} (h : IsUtf8 bs) (hscan : scanFraction bs = some (ds, rest)) :
    IsUtf8 rest := by
  unfold scanFraction at hscan
  split at hscan
  · simp only at hscan
    split at hscan
    · cases hscan
    · obtain ⟨-, rfl⟩ := Prod.mk.inj (Option.some.inj hscan)
      exact dropDigits_utf8 (h.tail (by decide))
  · obtain ⟨-, rfl⟩ := Prod.mk.inj (Option.some.inj hscan)
    exact h

theorem scanExponent_utf8 {e : Option ℤ} (h : IsUtf8 bs) (hscan : scanExponent bs = some (e, rest)) :
    IsUtf8 rest := by
  unfold scanExponent at hscan
  split at hscan
  · rename_i b more
    split at hscan
    · rename_i hb
      have hmore : IsUtf8 more := h.tail (by obtain rfl | rfl := hb <;> decide)
      split at hscan
      rename_i negative digits hsign
      have hdigits : IsUtf8 digits := by
        split at hsign
        all_goals obtain ⟨rfl, rfl⟩ := Prod.mk.inj hsign
        · exact hmore.tail (by decide)
        · exact hmore.tail (by decide)
        · exact hmore
      simp only at hscan
      split at hscan
      · cases hscan
      · obtain ⟨-, rfl⟩ := Prod.mk.inj (Option.some.inj hscan)
        exact dropDigits_utf8 hdigits
    · obtain ⟨-, rfl⟩ := Prod.mk.inj (Option.some.inj hscan)
      exact h
  · obtain ⟨-, rfl⟩ := Prod.mk.inj (Option.some.inj hscan)
    exact h

theorem scanMagnitude_utf8 {negative : Bool} {t : Token} (h : IsUtf8 bs)
    (hscan : scanMagnitude negative bs = some (t, rest)) : IsUtf8 rest ∧ ∀ s, t ≠ .text s := by
  unfold scanMagnitude at hscan
  simp only [Option.bind_eq_bind] at hscan
  split at hscan
  · cases hscan
  · obtain ⟨⟨ds, more⟩, hfraction, hscan⟩ := Option.bind_eq_some_iff.mp hscan
    obtain ⟨⟨e, more'⟩, hexponent, hscan⟩ := Option.bind_eq_some_iff.mp hscan
    have hrest := scanExponent_utf8 (scanFraction_utf8 (dropDigits_utf8 h) hfraction) hexponent
    simp only at hscan
    split at hscan
    all_goals
      obtain ⟨rfl, rfl⟩ := Prod.mk.inj (Option.some.inj hscan)
      exact ⟨hrest, by simp⟩

theorem scanNumber_utf8 {t : Token} (h : IsUtf8 bs) (hscan : scanNumber .exact bs = some (t, rest)) :
    IsUtf8 rest ∧ ∀ s, t ≠ .text s := by
  unfold scanNumber at hscan
  split at hscan
  · rename_i more
    have hmore : IsUtf8 more := h.tail (by decide)
    split at hscan
    · rename_i hword
      split at hword
      · obtain ⟨rfl, rfl⟩ := Prod.mk.inj (Option.some.inj hscan)
        exact ⟨expect_utf8 (by simp) hmore hword, by simp⟩
      · cases hword
    · exact scanMagnitude_utf8 hmore hscan
  · exact scanMagnitude_utf8 h hscan

theorem scanText_utf8 {s : Bytes} (h : IsUtf8 bs) (hscan : scanText .exact bs = some (s, rest)) :
    IsUtf8 s ∧ IsUtf8 rest := by
  rw [← List.nil_append bs] at h
  exact scanString_utf8 h hscan

theorem scanWord_utf8 {word : String} {t u : Token} (hword : ∀ c ∈ word.toList, c.toNat < 128)
    (hu : ∀ s, u ≠ .text s) (h : IsUtf8 bs) (hscan : (expect word bs).map (u, ·) = some (t, rest)) :
    IsUtf8 rest ∧ ∀ s, t = .text s → IsUtf8 s := by
  obtain ⟨more, hexpect, hpair⟩ := Option.map_eq_some_iff.mp hscan
  obtain ⟨rfl, rfl⟩ := Prod.mk.inj hpair
  exact ⟨expect_utf8 hword h hexpect, fun s hs => absurd hs (hu s)⟩

theorem scan_utf8 {t : Token} (h : IsUtf8 bs) (hscan : scan .exact bs = some (t, rest)) :
    IsUtf8 rest ∧ ∀ s, t = .text s → IsUtf8 s := by
  unfold scan at hscan
  split at hscan
  · cases hscan
  · rename_i b more
    split_ifs at hscan with h1 h2 h3 h4 h5 h6 h7 h8
    · exact scanWord_utf8 (by simp) (by simp) h hscan
    · exact scanWord_utf8 (by simp) (by simp) h hscan
    · exact scanWord_utf8 (by simp) (by simp) h hscan
    · obtain ⟨rfl, rfl⟩ := Prod.mk.inj (Option.some.inj hscan)
      exact ⟨h.tail (h4 ▸ by decide), by simp⟩
    · obtain ⟨rfl, rfl⟩ := Prod.mk.inj (Option.some.inj hscan)
      exact ⟨h.tail (h5 ▸ by decide), by simp⟩
    · obtain ⟨⟨s, more'⟩, htext, hpair⟩ := Option.map_eq_some_iff.mp hscan
      obtain ⟨rfl, rfl⟩ := Prod.mk.inj hpair
      obtain ⟨hs, hrest⟩ := scanText_utf8 (h.tail (h6 ▸ by decide)) htext
      refine ⟨hrest, ?_⟩
      rintro _ ⟨⟩
      exact hs
    · exact scanWord_utf8 (by simp) (by simp) h hscan
    · exact scanWord_utf8 (by simp) (by simp) h hscan
    · obtain ⟨hrest, hnumber⟩ := scanNumber_utf8 h hscan
      exact ⟨hrest, fun s hs => absurd hs (hnumber s)⟩

end Scanners

section Readers

variable {α β σ : Type} {P : α → Prop} {Q : β → Prop} {bs : Bytes}

def Yields (P : α → Prop) : Except TypedError α → Prop
  | .ok a => P a
  | .error e => e ≠ .encoding

theorem Yields.bind {x : Except TypedError α} {f : α → Except TypedError β} (hx : Yields P x)
    (hf : ∀ a, P a → Yields Q (f a)) : Yields Q (x >>= f) := by
  cases x with
  | error e => exact hx
  | ok a => exact hf a hx

def ReadsText (read : Reader α) : Prop :=
  ∀ bs, IsUtf8 bs → Yields (fun t => IsUtf8 t.2) (read bs)

theorem token_yields (h : IsUtf8 bs) :
    Yields (fun t => IsUtf8 t.2 ∧ ∀ s, t.1 = .text s → IsUtf8 s) (token bs) := by
  unfold token
  split
  · rename_i t hscan
    exact scan_utf8 (skipSpace_utf8 h) hscan
  · exact nofun

theorem utf8Checked_yields (h : IsUtf8 bs) : Yields (fun _ => True) (utf8Checked bs) := by
  obtain ⟨s, hs⟩ := h.exists_text
  rw [utf8Checked, hs]
  trivial

theorem readsText_integer : ReadsText integer := by
  intro bs h
  apply (token_yields h).bind
  rintro ⟨t, rest⟩ ⟨hrest, -⟩
  cases t with
  | integer count n =>
    simp only
    split
    · exact nofun
    · exact hrest
  | _ => exact nofun

theorem readsText_integerOrText : ReadsText integerOrText := by
  intro bs h
  apply (token_yields h).bind
  rintro ⟨t, rest⟩ ⟨hrest, htext⟩
  cases t with
  | integer count n =>
    simp only
    split
    · exact nofun
    · exact hrest
  | text s =>
    apply (utf8Checked_yields (htext s rfl)).bind
    exact fun _ _ => hrest
  | _ => exact nofun

theorem readsText_members {close : UInt8} (hclose : close.toNat < 128) {step : σ → Reader σ}
    (hstep : ∀ s, ReadsText (step s)) (fuel : ℕ) (first : Bool) (s : σ) :
    ReadsText (members close step fuel first s) := by
  induction fuel generalizing first s with
  | zero => exact fun _ _ => nofun
  | succ fuel ih =>
    intro bs h
    have hskip := skipSpace_utf8 h
    rw [members]
    split
    · exact nofun
    · rename_i b rest hbs
      rw [hbs] at hskip
      split_ifs with hb hfirst hcomma
      · exact hskip.tail (hb ▸ hclose)
      · apply (hstep s _ hskip).bind
        exact fun t ht => ih false t.1 t.2 ht
      · have hmore := skipSpace_utf8 (hskip.tail (hcomma ▸ by decide))
        split
        · exact nofun
        · rename_i c more hrest
          rw [hrest] at hmore
          split_ifs
          · exact nofun
          · apply (hstep s _ hmore).bind
            exact fun t ht => ih false t.1 t.2 ht
      · exact nofun

theorem readsText_array {item : Reader α} (hitem : ReadsText item) : ReadsText (array item) := by
  intro bs h
  apply (token_yields h).bind
  rintro ⟨t, rest⟩ ⟨hrest, -⟩
  cases t with
  | arrayStart =>
    refine (readsText_members (by decide) ?_ _ _ _ _ hrest).bind fun _ hmore => hmore
    intro acc bs h
    exact (hitem bs h).bind fun _ hmore => hmore
  | _ => exact nofun

theorem nextIs_utf8 {b : UInt8} (hb : b.toNat < 128) {rest : Bytes} (h : IsUtf8 bs) (hnext : nextIs b bs = some rest) :
    IsUtf8 rest := by
  have hskip := skipSpace_utf8 h
  unfold nextIs at hnext
  split at hnext
  · rename_i c more hbs
    rw [hbs] at hskip
    split_ifs at hnext with hc
    obtain rfl := Option.some.inj hnext
    exact hskip.tail (hc ▸ hb)
  · cases hnext

theorem readsText_name : ReadsText name := by
  intro bs h
  unfold name
  split
  · apply (token_yields h).bind
    rintro ⟨t, rest⟩ ⟨hrest, -⟩
    cases t with
    | text s =>
      simp only
      split
      · rename_i hnext
        exact nextIs_utf8 (by decide) hrest hnext
      · exact nofun
    | _ => exact nofun
  · exact nofun

theorem readsText_skip (fuel : ℕ) : ReadsText (skip fuel) := by
  induction fuel with
  | zero => exact fun _ _ => nofun
  | succ fuel ih =>
    intro bs h
    apply (token_yields h).bind
    rintro ⟨t, rest⟩ ⟨hrest, -⟩
    cases t with
    | arrayStart => exact readsText_members (by decide) (fun _ => ih) _ _ _ _ hrest
    | objectStart =>
      refine readsText_members (by decide) ?_ _ _ _ _ hrest
      intro _ bs h
      exact (readsText_name bs h).bind fun t ht => ih t.2 ht
    | _ => exact hrest

theorem readsText_object (unknown : Unknown) {fields : List (String × (σ → Reader σ))}
    (hfields : ∀ f ∈ fields, ∀ s, ReadsText (f.2 s)) (start : σ) : ReadsText (object unknown fields start) := by
  intro bs h
  apply (token_yields h).bind
  rintro ⟨t, rest⟩ ⟨hrest, -⟩
  cases t with
  | objectStart =>
    refine readsText_members (by decide) ?_ _ _ _ _ hrest
    intro s bs h
    apply (readsText_name bs h).bind
    rintro ⟨key, rest⟩ hrest
    simp only
    split
    · rename_i read hfind
      exact hfields _ (List.mem_of_find?_eq_some hfind) s rest hrest
    · cases unknown with
      | refused => exact nofun
      | skipped => exact (readsText_skip _ rest hrest).bind fun _ hmore => hmore
  | _ => exact nofun

theorem readsText_field {item : Reader α} (hitem : ReadsText item) (put : σ → α → σ) (s : σ) :
    ReadsText (field item put s) :=
  fun bs h => (hitem bs h).bind fun _ hmore => hmore

theorem decode_ne_encoding {read : Reader α} (hread : ReadsText read) (h : IsUtf8 bs) :
    decode read bs ≠ .error .encoding := by
  have hyields : Yields (fun _ => True) (decode read bs) := by
    apply (hread bs h).bind
    rintro ⟨a, rest⟩ -
    simp only
    split
    · trivial
    · exact nofun
  intro hdecode
  rw [hdecode] at hyields
  exact hyields rfl

end Readers

end Json

end Settlement
