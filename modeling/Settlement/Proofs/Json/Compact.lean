import Mathlib
import Settlement.Json.Printer
import Settlement.Json.Typed
import Settlement.Proofs.Except
import Settlement.Proofs.Text.Utf8

/-!
What is printed on one line is read back by the typed readers: integers of at most as many digits as they
admit, plain text, arrays and objects.
-/

namespace Settlement

namespace Bytes

theorem ofString_append (s t : String) : ofString (s ++ t) = ofString s ++ ofString t := by
  simp only [ofString_eq, String.toList_append, List.flatMap_append]

theorem fromUTF8?_ofString (s : String) : String.fromUTF8? ⟨(ofString s).toArray⟩ = some s := by
  have hbytes : ByteArray.mk (ofString s).toArray = s.toUTF8 := by
    rw [ByteArray.ext_iff, ofString, ByteArray.toList, toList_loop]
    simp
  rw [hbytes, String.fromUTF8?, String.toUTF8_eq_toByteArray, dif_pos s.isValidUTF8]
  rfl

theorem ofString_inj {s t : String} (h : ofString s = ofString t) : s = t := by
  have hs := fromUTF8?_ofString s
  rw [h, fromUTF8?_ofString] at hs
  exact (Option.some.inj hs).symm

theorem ofString_intercalate (sep t : String) (ts : List String) :
    ofString (String.intercalate sep (t :: ts)) = ofString t ++ ts.flatMap fun t => ofString sep ++ ofString t := by
  induction ts generalizing t with
  | nil => simp
  | cons u ts ih =>
    rw [String.intercalate_cons_cons, ofString_append, ofString_append, ih]
    simp

end Bytes

namespace Json

open Bytes

def IsPlain (s : String) : Prop :=
  ∀ c ∈ s.toList, 32 ≤ c.toNat ∧ c.toNat < 127 ∧ c ≠ '"' ∧ c ≠ '\\'

instance (s : String) : Decidable (IsPlain s) := List.decidableBAll _ _

theorem quote_of_plain {s : String} (h : IsPlain s) : quote .ascii s = "\"" ++ s ++ "\"" := by
  have hescape : s.toList.flatMap (escapeChar .ascii) = s.toList := by
    conv_rhs => rw [← List.flatMap_singleton' s.toList]
    apply List.flatMap_congr
    intro c hc
    obtain ⟨hlow, hhigh, hquote, hslash⟩ := h c hc
    have hbreaks : c ≠ '\n' ∧ c ≠ '\r' ∧ c ≠ '\t' := by
      refine ⟨?_, ?_, ?_⟩ <;> rintro rfl <;> simp at hlow
    simp only [escapeChar, hquote, hslash, hbreaks, or_self, ↓reduceIte]
    rw [if_neg (by omega), if_neg (by omega), if_neg (by omega), if_pos (.inl hhigh)]
  rw [quote, hescape, ← String.toList_inj]
  simp

theorem toNat_ofNat_of_ascii {c : Char} (hc : c.toNat < 128) : (UInt8.ofNat c.toNat).toNat = c.toNat := by
  rw [UInt8.toNat_ofNat']
  omega

section Plain

variable {s : String} (h : IsPlain s)

include h

theorem IsPlain.ascii : ∀ c ∈ s.toList, c.toNat < 128 := by
  intro c hc
  have := (h c hc).2.1
  omega

theorem IsPlain.bytes : ∀ b ∈ ofString s, ¬b < 32 ∧ b ≠ 34 ∧ b ≠ 92 := by
  rw [ofString_of_ascii h.ascii, List.forall_mem_map]
  intro c hc
  obtain ⟨hlow, -, hquote, hslash⟩ := h c hc
  have hval := toNat_ofNat_of_ascii (h.ascii c hc)
  refine ⟨?_, ?_, ?_⟩
  · rw [UInt8.lt_iff_toNat_lt, hval]
    exact not_lt.mpr hlow
  · rintro heq
    rw [heq] at hval
    exact hquote (Char.toNat_inj.mp hval.symm)
  · rintro heq
    rw [heq] at hval
    exact hslash (Char.toNat_inj.mp hval.symm)

theorem IsPlain.quoted : ofString (quote .ascii s) = 34 :: (ofString s ++ [34]) := by
  have hmark : ofString "\"" = [34] := ofString_eq _
  rw [quote_of_plain h, ofString_append, ofString_append, hmark]
  rfl

end Plain

section Tokens

variable {d : Dialect}

theorem scanString_of_plain {bs : Bytes} (h : ∀ b ∈ bs, ¬b < 32 ∧ b ≠ 34 ∧ b ≠ 92) (acc rest : Bytes)
    {fuel : ℕ} (hfuel : bs.length < fuel) :
    scanString d fuel acc (bs ++ 34 :: rest) = some (acc.reverse ++ bs, rest) := by
  induction bs generalizing acc fuel with
  | nil =>
    obtain ⟨fuel, rfl⟩ := Nat.exists_eq_add_of_lt hfuel
    simp [scanString]
  | cons b bs ih =>
    obtain ⟨fuel, rfl⟩ : ∃ k, fuel = k + 1 := ⟨fuel - 1, by omega⟩
    obtain ⟨⟨hlow, hquote, hslash⟩, hbs⟩ := List.forall_mem_cons.mp h
    rw [List.length_cons] at hfuel
    rw [List.cons_append, scanString.eq_def]
    simp only [hquote, hlow, hslash, ne_eq, not_false_eq_true, ↓reduceIte]
    rw [ih hbs _ (by omega)]
    simp

theorem scan_quoted {s : String} (h : IsPlain s) (rest : Bytes) :
    scan d (ofString (quote .ascii s) ++ rest) = some (.text (ofString s), rest) := by
  have hquoted : ofString (quote .ascii s) ++ rest = 34 :: (ofString s ++ 34 :: rest) := by simp [h.quoted]
  have hscan : scanText d (ofString s ++ 34 :: rest) = some (ofString s, rest) := by
    rw [scanText, scanString_of_plain h.bytes _ _ (by simp)]
    rfl
  rw [hquoted]
  simp [scan, hscan]

def Ends (rest : Bytes) : Prop :=
  ∀ b ∈ rest.head?, b = 44 ∨ b = 93 ∨ b = 125

theorem Ends.nil : Ends [] := by simp [Ends]

theorem Ends.cons {b : UInt8} (hb : b = 44 ∨ b = 93 ∨ b = 125) (bs : Bytes) : Ends (b :: bs) := by
  simpa [Ends] using hb

def Stops (rest : Bytes) : Prop :=
  ∀ b ∈ rest.head?, isDigit b = false ∧ b ≠ 46 ∧ b ≠ 101 ∧ b ≠ 69

theorem Ends.stops {rest : Bytes} (h : Ends rest) : Stops rest := by
  intro b hb
  obtain rfl | rfl | rfl := h b hb <;> decide

theorem Stops.span {rest : Bytes} (h : Stops rest) :
    rest.takeWhile isDigit = [] ∧ rest.dropWhile isDigit = rest := by
  cases rest with
  | nil => exact ⟨rfl, rfl⟩
  | cons b rest => simp [(h b rfl).1]

theorem scanFraction_of_stops {rest : Bytes} (h : Stops rest) : scanFraction rest = some ([], rest) := by
  cases rest with
  | nil => rfl
  | cons b rest =>
    unfold scanFraction
    split
    · rename_i heq
      exact absurd (List.cons.inj heq).1 (h b rfl).2.1
    · rfl

theorem scanExponent_of_stops {rest : Bytes} (h : Stops rest) : scanExponent rest = some (none, rest) := by
  cases rest with
  | nil => rfl
  | cons b rest => simp [scanExponent, (h b rfl).2.2]

def digits (n : ℕ) : Bytes :=
  (Nat.toDigits 10 n).map fun c => UInt8.ofNat c.toNat

theorem toNat_lt_of_isDigit {c : Char} (hc : c.isDigit = true) : c.toNat < 128 :=
  (Char.isDigit_iff_toNat.mp hc).2.trans_lt (by decide)

theorem isDigit_of_mem_digits (n : ℕ) : ∀ b ∈ digits n, isDigit b = true := by
  rw [digits, List.forall_mem_map]
  intro c hc
  have hdigit : c.isDigit = true := Nat.isDigit_of_mem_toDigits (by decide) (by decide) hc
  simp only [isDigit, Bool.and_eq_true, decide_eq_true_eq, UInt8.le_iff_toNat_le,
    toNat_ofNat_of_ascii (toNat_lt_of_isDigit hdigit)]
  exact Char.isDigit_iff_toNat.mp hdigit

theorem decimal_digits (n : ℕ) : decimal (digits n) = n := by
  have hfold (cs : List Char) (hcs : ∀ c ∈ cs, c.isDigit = true) (k : ℕ) :
      (cs.map fun c => UInt8.ofNat c.toNat).foldl (fun n d => n * 10 + (d.toNat - 48)) k =
        Nat.ofDigitChars 10 cs k := by
    induction cs generalizing k with
    | nil => rfl
    | cons c cs ih =>
      obtain ⟨hc, hcs⟩ := List.forall_mem_cons.mp hcs
      rw [List.map_cons, List.foldl_cons, ih hcs, toNat_ofNat_of_ascii (toNat_lt_of_isDigit hc),
        Nat.ofDigitChars_cons, mul_comm]
      rfl
  have hdigits : ∀ c ∈ Nat.toDigits 10 n, c.isDigit = true :=
    fun c => Nat.isDigit_of_mem_toDigits (by decide) (by decide)
  rw [decimal, digits, hfold _ hdigits, Nat.ofDigitChars_toDigits (by decide) (by decide)]

theorem digits_ne_nil (n : ℕ) : digits n ≠ [] := by
  rw [digits, Nat.toDigits_eq_if (by decide)]
  split <;> simp

theorem exists_digits_cons (n : ℕ) : ∃ b bs, digits n = b :: bs ∧ isDigit b = true := by
  obtain ⟨b, bs, hbytes⟩ := List.exists_cons_of_ne_nil (digits_ne_nil n)
  exact ⟨b, bs, hbytes, isDigit_of_mem_digits n b (by simp [hbytes])⟩

theorem eq_zero_of_head_digits {n : ℕ} (h : (digits n).head? = some 48) : n = 0 := by
  induction n using Nat.strong_induction_on with
  | _ n ih =>
    by_cases hn : n < 10
    · interval_cases n <;> first | rfl | exact absurd h (by decide)
    · have hdigits : digits n = digits (n / 10) ++ digits (n % 10) := by
        rw [digits, Nat.toDigits_eq_if (by decide), if_neg hn, List.map_append, digits, digits,
          Nat.toDigits_of_lt_base (Nat.mod_lt n (by decide))]
      rw [hdigits, List.head?_append_of_ne_nil _ (digits_ne_nil _)] at h
      have := ih (n / 10) (by omega) h
      omega

theorem scanMagnitude_digits (negative : Bool) (n : ℕ) {rest : Bytes} (hrest : Stops rest) :
    scanMagnitude negative (digits n ++ rest) =
      some (.integer (Nat.toDigits 10 n).length (if negative then -n else n), rest) := by
  have hall := isDigit_of_mem_digits n
  have hwhole : (digits n ++ rest).takeWhile isDigit = digits n := by
    rw [List.takeWhile_append_of_pos hall, hrest.span.1, List.append_nil]
  have hbehind : (digits n ++ rest).dropWhile isDigit = rest := by
    rw [List.dropWhile_append_of_pos hall, hrest.span.2]
  have hzero : ¬((digits n).length > 1 ∧ (digits n).head? = some 48) := by
    rintro ⟨hlen, hhead⟩
    obtain rfl := eq_zero_of_head_digits hhead
    exact absurd hlen (by decide)
  have hempty : (digits n).isEmpty = false := by simpa using digits_ne_nil n
  simp only [scanMagnitude, hwhole, hbehind, hzero, hempty, scanFraction_of_stops hrest,
    scanExponent_of_stops hrest, decimal_digits,
    Bool.false_eq_true, or_self, ↓reduceIte, Option.bind_eq_bind, Option.bind_some, List.isEmpty_nil,
    Option.isNone_none, and_self]
  rw [digits, List.length_map]

theorem ofString_toString_int (n : ℤ) :
    ofString (toString n) = if 0 ≤ n then digits n.toNat else 45 :: digits (-n).toNat := by
  have hdigits (k : ℕ) : ofString (Nat.repr k) = digits k := by
    rw [Nat.repr_eq_ofList_toDigits, ofString_of_ascii, String.toList_ofList, digits]
    intro c hc
    rw [String.toList_ofList] at hc
    exact toNat_lt_of_isDigit (Nat.isDigit_of_mem_toDigits (by decide) (by decide) hc)
  have hsign : ofString "-" = [45] := ofString_eq _
  change ofString (Int.repr n) = _
  rw [Int.repr_eq_if]
  split
  · exact hdigits _
  · rw [ofString_append, hsign, hdigits]
    rfl

def digitCount (n : ℤ) : ℕ :=
  (Nat.toDigits 10 n.natAbs).length

theorem scan_of_isDigit {b : UInt8} (hb : isDigit b = true) (bs : Bytes) :
    scan d (b :: bs) = scanMagnitude false (b :: bs) := by
  have hne (k : UInt8) (hk : isDigit k = false) : b ≠ k := by
    rintro rfl
    simp [hk] at hb
  have h45 := hne 45 rfl
  simp only [scan, hne 110 rfl, hne 116 rfl, hne 102 rfl, hne 91 rfl, hne 123 rfl, hne 34 rfl, hne 78 rfl,
    hne 73 rfl, false_and, ↓reduceIte]
  rw [scanNumber]
  rintro rest heq
  exact h45 (List.cons.inj heq).1

theorem scan_of_minus {b : UInt8} (hb : isDigit b = true) (bs : Bytes) :
    scan d (45 :: b :: bs) = scanMagnitude true (b :: bs) := by
  have hword : expect "Infinity" (b :: bs) = none := by
    have hstart : ofString "Infinity" = [73, 110, 102, 105, 110, 105, 116, 121] := ofString_eq _
    have hne : b ≠ 73 := by
      rintro rfl
      cases hb
    simp [expect, hstart, List.isPrefixOf, hne.symm]
  cases d <;> simp [scan, scanNumber, hword]

theorem scan_integer (n : ℤ) {rest : Bytes} (hrest : Stops rest) :
    scan d (ofString (toString n) ++ rest) = some (.integer (digitCount n) n, rest) := by
  rw [ofString_toString_int]
  split
  · obtain ⟨b, bs, hbytes, hb⟩ := exists_digits_cons n.toNat
    have hscan := scanMagnitude_digits false n.toNat hrest
    rw [hbytes, List.cons_append] at hscan ⊢
    rw [scan_of_isDigit hb, hscan, digitCount, show n.natAbs = n.toNat by omega]
    simp [‹0 ≤ n›]
  · obtain ⟨b, bs, hbytes, hb⟩ := exists_digits_cons (-n).toNat
    have hscan := scanMagnitude_digits true (-n).toNat hrest
    rw [List.cons_append]
    rw [hbytes, List.cons_append] at hscan ⊢
    rw [scan_of_minus hb, hscan, digitCount, show n.natAbs = (-n).toNat by omega]
    simp only [↓reduceIte, Option.some.injEq, Prod.mk.injEq, Token.integer.injEq, true_and, and_true]
    omega

end Tokens

section Readers

variable {α σ : Type}

structure Written (read : Reader α) (s : String) (a : α) : Prop where
  head : ∃ b bs, ofString s = b :: bs ∧ isSpace b = false ∧ b ≠ 93 ∧ b ≠ 125 ∧ b ≠ 110
  reads : ∀ rest, Ends rest → read (ofString s ++ rest) = .ok (a, rest)

def Reads (read : Reader α) (v : Value) (a : α) : Prop :=
  ∀ depth, Written read (print (.compact .ascii) depth v) a

theorem decode_compact {read : Reader α} {v : Value} {a : α} (h : Reads read v a) :
    decode read (ofString (compact v)) = .ok a := by
  have hread := (h 0).reads [] .nil
  rw [List.append_nil] at hread
  rw [decode, compact, hread]
  rfl

theorem skipSpace_of_head {s : String} {b : UInt8} {bs : Bytes} (hs : ofString s = b :: bs)
    (hb : isSpace b = false) (rest : Bytes) : skipSpace (ofString s ++ rest) = ofString s ++ rest := by
  rw [hs, List.cons_append, skipSpace, List.dropWhile_cons_of_neg (by simp [hb])]

theorem head_integer (n : ℤ) :
    ∃ b bs, ofString (toString n) = b :: bs ∧ isSpace b = false ∧ b ≠ 93 ∧ b ≠ 125 ∧ b ≠ 110 := by
  have hdigit (k : ℕ) : ∃ b bs, digits k = b :: bs ∧ isSpace b = false ∧ b ≠ 93 ∧ b ≠ 125 ∧ b ≠ 110 := by
    obtain ⟨b, bs, hbytes, hb⟩ := exists_digits_cons k
    refine ⟨b, bs, hbytes, ?_, ?_, ?_, ?_⟩
    · by_contra hspace
      simp only [isSpace, Bool.not_eq_false, Bool.or_eq_true, beq_iff_eq] at hspace
      obtain ((rfl | rfl) | rfl) | rfl := hspace <;> cases hb
    all_goals
      rintro rfl
      cases hb
  rw [ofString_toString_int]
  split
  · exact hdigit _
  · exact ⟨45, _, rfl, rfl, by decide, by decide, by decide⟩

theorem head_quote {s : String} (h : IsPlain s) :
    ∃ b bs, ofString (quote .ascii s) = b :: bs ∧ isSpace b = false ∧ b ≠ 93 ∧ b ≠ 125 ∧ b ≠ 110 := by
  rw [h.quoted]
  exact ⟨34, _, rfl, rfl, by decide, by decide, by decide⟩

theorem token_integer (n : ℤ) {rest : Bytes} (hrest : Ends rest) :
    token (ofString (toString n) ++ rest) = .ok (.integer (digitCount n) n, rest) := by
  obtain ⟨b, bs, hbytes, hb, -⟩ := head_integer n
  rw [token, skipSpace_of_head hbytes hb, scan_integer n hrest.stops]

theorem token_quote {s : String} (h : IsPlain s) (rest : Bytes) :
    token (ofString (quote .ascii s) ++ rest) = .ok (.text (ofString s), rest) := by
  obtain ⟨b, bs, hbytes, hb, -⟩ := head_quote h
  rw [token, skipSpace_of_head hbytes hb, scan_quoted h]

theorem utf8Checked_ofString (s : String) : utf8Checked (ofString s) = .ok s := by
  rw [utf8Checked, fromUTF8?_ofString]

theorem reads_integer {n : ℤ} (hn : digitCount n ≤ Integer.maxDigits) : Reads integer (.int n) n := by
  intro depth
  refine ⟨head_integer n, ?_⟩
  intro rest hrest
  rw [print, integer, token_integer n hrest]
  simp [bind, Except.bind, pure, Except.pure, not_lt.mpr hn]

theorem reads_integerOrText_int {n : ℤ} (hn : digitCount n ≤ Integer.maxDigits) :
    Reads integerOrText (.int n) (.inl n) := by
  intro depth
  refine ⟨head_integer n, ?_⟩
  intro rest hrest
  rw [print, integerOrText, token_integer n hrest]
  simp [bind, Except.bind, pure, Except.pure, not_lt.mpr hn]

theorem reads_integerOrText_text {s : String} (hs : IsPlain s) : Reads integerOrText (.text s) (.inr s) := by
  intro depth
  refine ⟨head_quote hs, ?_⟩
  intro rest _
  rw [print, integerOrText, show (Style.compact .ascii).charset = .ascii from rfl, token_quote hs]
  simp [bind, Except.bind, pure, Except.pure, utf8Checked_ofString]

theorem reads_optional {item : Reader α} {v : Value} {a : α} (h : Reads item v a) :
    Reads (optional item) v (some a) := by
  intro depth
  obtain ⟨⟨b, bs, hbytes, hspace, h93, h125, h110⟩, hreads⟩ := h depth
  refine ⟨⟨b, bs, hbytes, hspace, h93, h125, h110⟩, ?_⟩
  intro rest hrest
  have hskip := skipSpace_of_head hbytes hspace rest
  rw [optional, hskip]
  split
  · rename_i more heq
    rw [hbytes, List.cons_append] at heq
    exact absurd (List.cons.inj heq).1 h110
  · rw [hreads rest hrest]
    rfl

inductive Steps (step : σ → Reader σ) : σ → List String → σ → Prop
  | nil (s : σ) : Steps step s [] s
  | cons {s s' s'' : σ} {t : String} {ts : List String} (h : Written (step s) t s') (hs : Steps step s' ts s'') :
    Steps step s (t :: ts) s''

theorem ofString_members (t : String) (ts : List String) :
    ofString (String.intercalate "," (t :: ts)) = ofString t ++ ts.flatMap fun t => 44 :: ofString t := by
  rw [ofString_intercalate, show ofString "," = [44] from ofString_eq _]
  rfl

theorem length_le_intercalate {step : σ → Reader σ} {s s' : σ} {ts : List String} (h : Steps step s ts s') :
    ts.length ≤ (ofString (String.intercalate "," ts)).length := by
  cases h with
  | nil => exact Nat.zero_le _
  | @cons _ _ _ t ts ht hs =>
    obtain ⟨b, bs, hbytes, -⟩ := ht.head
    have hrest : ts.length ≤ (ts.flatMap fun t => 44 :: ofString t).length := by
      rw [List.length_flatMap]
      exact List.length_le_sum_of_one_le _ (by simp) |>.trans' (by simp)
    rw [ofString_members, hbytes, List.length_append, List.length_cons, List.length_cons]
    omega

section Members

variable {close : UInt8} (hclose : close = 93 ∨ close = 125) {step : σ → Reader σ}

include hclose

theorem ends_behind (ts : List String) (rest : Bytes) :
    Ends (ts.flatMap (fun t => 44 :: ofString t) ++ close :: rest) := by
  cases ts with
  | nil => exact .cons (.inr hclose) _
  | cons t ts => exact .cons (.inl rfl) _

theorem members_close (first : Bool) (s : σ) (rest : Bytes) (fuel : ℕ) :
    members close step (fuel + 1) first s (close :: rest) = .ok (s, rest) := by
  have hskip : skipSpace (close :: rest) = close :: rest := by
    obtain rfl | rfl := hclose <;> rfl
  simp [members, hskip]

theorem members_cons {s s' : σ} {t : String} (ht : Written (step s) t s') (first : Bool) {behind : Bytes}
    (hbehind : Ends behind) (fuel : ℕ) :
    members close step (fuel + 1) first s ((if first then [] else [44]) ++ (ofString t ++ behind)) =
      members close step fuel false s' behind := by
  obtain ⟨⟨b, bs, hbytes, hspace, h93, h125, -⟩, hreads⟩ := ht
  have hread := hreads behind hbehind
  have hskip := skipSpace_of_head hbytes hspace behind
  have hcomma (bs : Bytes) : skipSpace (44 :: bs) = 44 :: bs := rfl
  have h44 : (44 : UInt8) ≠ close := by obtain rfl | rfl := hclose <;> decide
  have hb : b ≠ close := by obtain rfl | rfl := hclose <;> assumption
  rw [hbytes, List.cons_append] at hread hskip
  rw [hbytes, List.cons_append, members]
  cases first with
  | true =>
    simp only [↓reduceIte, List.nil_append, hskip, hb, hread]
    rfl
  | false =>
    simp only [Bool.false_eq_true, ↓reduceIte, List.singleton_append, hcomma, h44, hskip, hb, hread]
    rfl

theorem members_behind {s s' : σ} {ts : List String} (h : Steps step s ts s') (rest : Bytes) {fuel : ℕ}
    (hfuel : ts.length < fuel) :
    members close step fuel false s (ts.flatMap (fun t => 44 :: ofString t) ++ close :: rest) =
      .ok (s', rest) := by
  induction h generalizing fuel with
  | nil s =>
    obtain ⟨fuel, rfl⟩ : ∃ k, fuel = k + 1 := ⟨fuel - 1, by simp at hfuel; omega⟩
    exact members_close hclose false s rest fuel
  | @cons s s₁ s' t ts ht _ ih =>
    rw [List.length_cons] at hfuel
    obtain ⟨fuel, rfl⟩ : ∃ k, fuel = k + 1 := ⟨fuel - 1, by omega⟩
    have hcons := members_cons hclose ht false (ends_behind hclose ts rest) fuel
    rw [List.flatMap_cons, List.append_assoc]
    exact hcons.trans (ih (by omega))

theorem members_between {s s' : σ} {ts : List String} (h : Steps step s ts s') (rest : Bytes) :
    members close step ((ofString (String.intercalate "," ts) ++ close :: rest).length + 1) true s
      (ofString (String.intercalate "," ts) ++ close :: rest) = .ok (s', rest) := by
  have hfuel := length_le_intercalate h
  cases h with
  | nil =>
    have hempty : ofString (String.intercalate "," []) = [] := ofString_eq _
    rw [hempty]
    exact members_close hclose true s rest _
  | @cons _ s₁ _ t ts ht hs =>
    have hcons := members_cons hclose ht true (ends_behind hclose ts rest)
      (ofString (String.intercalate "," (t :: ts)) ++ close :: rest).length
    rw [List.length_cons] at hfuel
    rw [ofString_members, List.append_assoc] at hcons ⊢
    refine hcons.trans (members_behind hclose hs rest ?_)
    rw [← List.append_assoc, ← ofString_members, List.length_append]
    omega

end Members

theorem ofString_enclose (cs : Charset) (depth : ℕ) (left right : String) (ts : List String) :
    ofString (enclose (.compact cs) depth left right ts) =
      ofString left ++ ofString (String.intercalate "," ts) ++ ofString right := by
  have hbreak (depth : ℕ) : (Style.compact cs).lineBreak depth = "" := rfl
  have hcomma : (Style.compact cs).comma = "," := rfl
  cases ts with
  | nil => simp [enclose, ofString_append, show ofString "" = [] from ofString_eq _]
  | cons t ts => simp [enclose, hbreak, hcomma, ofString_append]

theorem token_arrayStart (bs : Bytes) : token (91 :: bs) = .ok (.arrayStart, bs) := rfl

theorem token_objectStart (bs : Bytes) : token (123 :: bs) = .ok (.objectStart, bs) := rfl

def collect (item : Reader α) (acc : List α) : Reader (List α) := fun bs => do
  let (a, rest) ← item bs
  pure (a :: acc, rest)

theorem reads_array {item : Reader α} {vs : List Value} {as : List α} (h : List.Forall₂ (Reads item) vs as) :
    Reads (array item) (.list vs) as := by
  intro depth
  have hsteps (acc : List α) :
      Steps (collect item) acc (printItems (.compact .ascii) (depth + 1) vs) (as.reverse ++ acc) := by
    induction h generalizing acc with
    | nil => exact .nil acc
    | @cons v a vs as hv _ ih =>
      rw [printItems, List.reverse_cons, List.append_assoc]
      obtain ⟨hhead, hreads⟩ := hv (depth + 1)
      refine .cons ⟨hhead, ?_⟩ (ih (a :: acc))
      intro rest hrest
      rw [collect, hreads rest hrest]
      rfl
  have hleft : ofString "[" = [91] := ofString_eq _
  have hright : ofString "]" = [93] := ofString_eq _
  rw [print]
  constructor
  · rw [ofString_enclose, hleft]
    exact ⟨91, _, rfl, rfl, by decide, by decide, by decide⟩
  · intro rest _
    have hmembers := members_between (.inl rfl) (hsteps []) rest
    rw [ofString_enclose, hleft, hright, List.append_assoc, List.append_assoc, List.singleton_append,
      List.singleton_append, array, token_arrayStart]
    refine Except.bind_eq_ok.mpr ⟨_, rfl, Except.bind_eq_ok.mpr ⟨_, hmembers, ?_⟩⟩
    simp only [List.append_nil, List.reverse_reverse]
    rfl

def member (unknown : Unknown) (fields : List (String × (σ → Reader σ))) (s : σ) : Reader σ := fun bs => do
  let (key, rest) ← name bs
  match fields.find? (fun f => ofString f.1 == key) with
  | some (_, read) => read s rest
  | none =>
    match unknown with
    | .refused => throw .mistyped
    | .skipped =>
      let (_, rest) ← skip rest.length rest
      pure (s, rest)

theorem name_quote {s : String} (h : IsPlain s) (rest : Bytes) :
    name (ofString (quote .ascii s) ++ 58 :: rest) = .ok (ofString s, rest) := by
  have htoken := token_quote h (58 :: rest)
  rw [h.quoted, List.cons_append] at htoken ⊢
  rw [name, htoken]
  rfl

theorem written_member {unknown : Unknown} {fields : List (String × (σ → Reader σ))} {k k' : String}
    (hk : IsPlain k) {read : σ → Reader σ} (hfind : fields.find? (fun f => f.1 == k) = some (k', read)) {t : String}
    {s s' : σ} (h : Written (read s) t s') : Written (member unknown fields s) (quote .ascii k ++ ":" ++ t) s' := by
  have hcolon : ofString ":" = [58] := ofString_eq _
  have hfind' : fields.find? (fun f => ofString f.1 == ofString k) = some (k', read) := by
    rw [← hfind]
    congr 1
    funext f
    rw [Bool.eq_iff_iff, beq_iff_eq, beq_iff_eq]
    exact ⟨ofString_inj, congrArg ofString⟩
  obtain ⟨b, bs, hbytes, hhead⟩ := head_quote hk
  refine ⟨⟨b, bs ++ ofString ":" ++ ofString t, ?_, hhead⟩, ?_⟩
  · rw [ofString_append, ofString_append, hbytes]
    rfl
  · intro rest hrest
    rw [ofString_append, ofString_append, hcolon, List.append_assoc, List.append_assoc, List.singleton_append,
      member, name_quote hk]
    simp only [bind, Except.bind, hfind']
    exact h.reads rest hrest

theorem reads_object {unknown : Unknown} {fields : List (String × (σ → Reader σ))} {start s : σ}
    {entries : List (String × Value)}
    (h : ∀ depth, Steps (member unknown fields) start
      (entries.map fun e => quote .ascii e.1 ++ ":" ++ print (.compact .ascii) depth e.2) s) :
    Reads (object unknown fields start) (.object entries) s := by
  intro depth
  have hfields : printFields (.compact .ascii) (depth + 1) (entries.map fun e => (.text e.1, e.2)) =
      entries.map fun e => quote .ascii e.1 ++ ":" ++ print (.compact .ascii) (depth + 1) e.2 := by
    clear h
    induction entries with
    | nil => rfl
    | cons e entries ih =>
      rw [List.map_cons, List.map_cons, printFields, ih]
      rfl
  have hobject : Value.object entries = .mapping (entries.map fun e => (.text e.1, e.2)) := rfl
  have hsteps := h (depth + 1)
  have hleft : ofString "\x7b" = [123] := ofString_eq _
  have hright : ofString "\x7d" = [125] := ofString_eq _
  rw [hobject, print, hfields]
  constructor
  · rw [ofString_enclose, hleft]
    exact ⟨123, _, rfl, rfl, by decide, by decide, by decide⟩
  · intro rest _
    have hmembers := members_between (.inr rfl) hsteps rest
    rw [ofString_enclose, hleft, hright, List.append_assoc, List.append_assoc, List.singleton_append,
      List.singleton_append, object, token_objectStart]
    exact hmembers

end Readers

end Json

end Settlement
