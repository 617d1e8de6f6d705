import Settlement.Proofs.Key.Word

/-!
The grammar of words. Reading decides it for text of every form, as long as the letter of a marker is small: the
marker `0X` is looked for, and then the shape that admits only `0x` refuses it.
-/

namespace Settlement

namespace Text

theorem exists_eq_trim (blank : Char → Bool) (cs : List Char) :
    ∃ left right, cs = left ++ trim blank cs ++ right ∧ (∀ c ∈ left, blank c = true) ∧
      ∀ c ∈ right, blank c = true := by
  have hfront := List.takeWhile_append_dropWhile (p := blank) (l := cs)
  have hback := congrArg List.reverse
    (List.takeWhile_append_dropWhile (p := blank) (l := (cs.dropWhile blank).reverse))
  rw [List.reverse_append, List.reverse_reverse] at hback
  refine ⟨cs.takeWhile blank, ((cs.dropWhile blank).reverse.takeWhile blank).reverse, ?_, ?_, ?_⟩
  · rw [trim, List.append_assoc, hback, hfront]
  · intro c hc
    exact List.mem_takeWhile_imp hc
  · intro c hc
    exact List.mem_takeWhile_imp (List.mem_reverse.mp hc)

theorem not_blank_of_getLast?_trim {blank : Char → Bool} {cs : List Char} {c : Char}
    (h : (trim blank cs).getLast? = some c) : blank c = false := by
  rw [trim, List.getLast?_reverse] at h
  have hhead := List.head?_dropWhile_not blank (cs.dropWhile blank).reverse
  rw [h] at hhead
  simpa using hhead

end Text

namespace Word

theorem pads_trim (s : String) : Pads s (Text.trim Text.isBlank s.toList) :=
  Text.exists_eq_trim Text.isBlank s.toList

/-- The grammar of words, where `marker` tells the letters that may stand between the zero in front and hexadecimal
digits: an integer stands for itself, and text, blanks around it aside, for the number of its digits. -/
inductive Grammar (marker : Char → Prop) : Value → ℤ → Prop
  | integer (n : ℤ) : Grammar marker (.int n) n
  | hex {s : String} {m : Char} {ds : List Char} (hs : Pads s ('0' :: m :: ds)) (hm : marker m) (hne : ds ≠ [])
    (hlen : ds.length ≤ 64) (hds : ∀ c ∈ ds, Hex.isDigit c = true) : Grammar marker (.text s) (Hex.denoted ds)
  | decimal {s : String} {ds : List Char} (hs : Pads s ds) (hne : ds ≠ []) (hlen : ds.length ≤ 4300)
    (hds : ∀ c ∈ ds, Text.isAsciiDigit c = true) : Grammar marker (.text s) (decimalDenoted ds)

def EitherCase (m : Char) : Prop :=
  m = 'x' ∨ m = 'X'

theorem parse_of_grammar {v : Value} {n : ℤ} (h : Grammar (· = 'x') v n) : parse v = inRange n := by
  cases h with
  | integer => rfl
  | hex hs hm hne hlen hds =>
    subst hm
    exact parseText_of_hex hs hne hlen hds
  | decimal hs hne hlen hds => exact parseText_of_decimal hs hne hlen hds

theorem hasMarker_iff {cs : List Char} : hasMarker cs = true ↔ ∃ m ds, cs = '0' :: m :: ds ∧ EitherCase m := by
  constructor
  · intro h
    unfold hasMarker at h
    split at h
    · rename_i m ds
      exact ⟨m, ds, rfl, by simpa [EitherCase] using h⟩
    · cases h
  · rintro ⟨m, ds, rfl, hm⟩
    simpa [hasMarker, EitherCase] using hm

theorem not_hexShape_capital (ds : List Char) : hexShape ('0' :: 'X' :: ds) = false := by
  have hdrop : ('0' :: 'X' :: ds).dropWhile Hex.isDigit = 'X' :: ds := rfl
  simp [hexShape, hdrop]

theorem digits_of_hexShape {cs ds : List Char} (htrim : Text.trim Text.isBlank cs = '0' :: 'x' :: ds)
    (h : hexShape ('0' :: 'x' :: ds) = true) : ∀ c ∈ ds, Hex.isDigit c = true := by
  -- a line break behind the digits would be a blank at the end of trimmed text
  simp only [hexShape] at h
  split at h
  · rename_i hdrop
    exact List.dropWhile_eq_nil_iff.mp hdrop
  · rename_i hdrop
    have hlast : ('0' :: 'x' :: ds).getLast? = some '\n' := by
      rw [← List.takeWhile_append_dropWhile (p := Hex.isDigit) (l := ds), hdrop, ← List.cons_append, ← List.cons_append,
        List.getLast?_append, List.getLast?_singleton, Option.some_or]
    rw [← htrim] at hlast
    exact absurd (Text.not_blank_of_getLast?_trim hlast) (by decide)
  · cases h

theorem parseText_of_capital {s : String} {ds : List Char} (hs : Text.trim Text.isBlank s.toList = '0' :: 'X' :: ds) :
    parseText s = .error (.invalidHex s) := by
  have hmarker : hasMarker ('0' :: 'X' :: ds) = true := hasMarker_iff.mpr ⟨'X', ds, rfl, .inr rfl⟩
  have hshape : isHexText false false (String.ofList ('0' :: 'X' :: ds)) = false := by
    simp [isHexText, not_hexShape_capital]
  rw [parseText, hs]
  simp only [hmarker, hshape, ↓reduceIte, Bool.false_eq_true, not_false_eq_true, true_or, or_true]

theorem grammar_or_refused (s : String) :
    (∃ n, Grammar (· = 'x') (.text s) n) ∨ ∃ e, parseText s = .error e ∧ e ≠ .outOfRange := by
  have hpads := pads_trim s
  generalize htrim : Text.trim Text.isBlank s.toList = body at hpads
  by_cases hmarker : hasMarker body = true
  · obtain ⟨m, ds, rfl, rfl | rfl⟩ := hasMarker_iff.mp hmarker
    · -- trimmed text cannot end in the line break that the shape lets pass
      by_cases hdigits : (∀ c ∈ ds, Hex.isDigit c = true) ∧ ds ≠ [] ∧ ds.length ≤ 64
      · obtain ⟨hds, hne, hlen⟩ := hdigits
        exact .inl ⟨_, .hex hpads rfl hne hlen hds⟩
      · refine .inr ⟨.invalidHex s, ?_, by simp⟩
        rw [parseText, htrim]
        simp only [hmarker, ↓reduceIte, List.drop_succ_cons, List.drop_zero]
        rw [if_pos]
        by_contra hnone
        push Not at hnone
        obtain ⟨hne, hshape, hlen⟩ := hnone
        simp only [List.length_cons] at hlen
        exact hdigits ⟨digits_of_hexShape htrim (by simpa [isHexText] using hshape), by simpa using hne, by omega⟩
    · exact .inr ⟨.invalidHex s, parseText_of_capital htrim, by simp⟩
  · by_cases hdigits : body ≠ [] ∧ ∀ c ∈ body, Text.isAsciiDigit c = true
    · obtain ⟨hne, hds⟩ := hdigits
      by_cases hlen : body.length ≤ 4300
      · exact .inl ⟨_, .decimal hpads hne hlen hds⟩
      · refine .inr ⟨.tooManyDigits body.length, ?_, by simp⟩
        have hcount : body.length > Integer.maxDigits := not_le.mp hlen
        rw [parseText, htrim]
        simp [hmarker, hne, hcount, List.all_eq_true.mpr hds]
    · refine .inr ⟨.invalid s, ?_, by simp⟩
      rw [parseText, htrim]
      simp only [hmarker, ↓reduceIte, Bool.false_eq_true]
      rw [if_neg]
      simpa [List.all_eq_true] using hdigits

theorem parse_cases (v : Value) :
    (∃ n, Grammar (· = 'x') v n ∧ parse v = inRange n) ∨
      (¬∃ n, Grammar (· = 'x') v n) ∧ ∃ e, parse v = .error e ∧ e ≠ .outOfRange := by
  by_cases hword : ∃ n, Grammar (· = 'x') v n
  · obtain ⟨n, hn⟩ := hword
    exact .inl ⟨n, hn, parse_of_grammar hn⟩
  refine .inr ⟨hword, ?_⟩
  cases v with
  | bool b => exact ⟨.boolean, rfl, by simp⟩
  | int n => exact absurd ⟨n, .integer n⟩ hword
  | text s => exact (grammar_or_refused s).resolve_left hword
  | halves bs => exact ⟨.halves _ _, rfl, by simp⟩
  | _ => exact ⟨.unsupported _, rfl, by simp⟩

theorem inRange_eq_error_iff {n : ℤ} {e : ReadError} :
    inRange n = .error e ↔ (n < 0 ∨ 2 ^ 256 ≤ n) ∧ e = .outOfRange := by
  have hbound : Nat.pow 2 256 = 2 ^ 256 := rfl
  unfold inRange
  split
  · rename_i hn
    constructor
    · intro h
      cases h
    · omega
  · rename_i hn
    rw [Except.error.injEq, eq_comm]
    refine ⟨fun he => ⟨by omega, he⟩, And.right⟩

theorem parse_eq_ok_iff {v : Value} {n : ℕ} : parse v = .ok n ↔ Grammar (· = 'x') v n ∧ n < 2 ^ 256 := by
  constructor
  · intro h
    obtain ⟨k, hk, hread⟩ | ⟨-, e, herror, -⟩ := parse_cases v
    · obtain ⟨rfl, hn⟩ := inRange_eq_ok_iff.mp (hread.symm.trans h)
      exact ⟨hk, hn⟩
    · cases herror.symm.trans h
  · rintro ⟨hword, hn⟩
    exact (parse_of_grammar hword).trans (inRange_eq_ok_iff.mpr ⟨rfl, hn⟩)

theorem parse_eq_outOfRange_iff {v : Value} :
    parse v = .error .outOfRange ↔ ∃ n, Grammar (· = 'x') v n ∧ (n < 0 ∨ 2 ^ 256 ≤ n) := by
  constructor
  · intro h
    obtain ⟨k, hk, hread⟩ | ⟨-, e, herror, hother⟩ := parse_cases v
    · exact ⟨k, hk, (inRange_eq_error_iff.mp (hread.symm.trans h)).1⟩
    · exact absurd (Except.error.inj (herror.symm.trans h)) hother
  · rintro ⟨n, hword, hn⟩
    exact (parse_of_grammar hword).trans (inRange_eq_error_iff.mpr ⟨hn, rfl⟩)

theorem grammar_or_invalidHex {v : Value} {n : ℤ} (h : Grammar EitherCase v n) :
    Grammar (· = 'x') v n ∨ ∃ s, v = .text s ∧ parse v = .error (.invalidHex s) := by
  cases h with
  | integer => exact .inl (.integer n)
  | @hex s m ds hs hm hne hlen hds =>
    obtain rfl | rfl := hm
    · exact .inl (.hex hs rfl hne hlen hds)
    · exact .inr ⟨s, rfl, parseText_of_capital (hs.trim (ascii_of_marked (by decide) hds))⟩
  | decimal hs hne hlen hds => exact .inl (.decimal hs hne hlen hds)

/-- A value is read as a number exactly if it spells it with a marker in lower case and the number has at most 256
bits, and it is out of range exactly if it spells a number that has more or is negative. Of the grammar with the
marker in either case, what is then missing is refused as malformed. -/
theorem parse_decides_grammar (v : Value) :
    (∀ n : ℕ, parse v = .ok n ↔ Grammar (· = 'x') v n ∧ n < 2 ^ 256) ∧
      (parse v = .error .outOfRange ↔ ∃ n, Grammar (· = 'x') v n ∧ (n < 0 ∨ 2 ^ 256 ≤ n)) ∧
        ∀ n, Grammar EitherCase v n → Grammar (· = 'x') v n ∨ ∃ s, v = .text s ∧ parse v = .error (.invalidHex s) :=
  ⟨fun _ => parse_eq_ok_iff, parse_eq_outOfRange_iff, fun _ => grammar_or_invalidHex⟩

theorem not_read_capitalMarker :
    ¬(parse (.text "0X1f") = .ok 31 ↔ Grammar EitherCase (.text "0X1f") 31 ∧ (31 : ℤ) < 2 ^ 256) := by
  have hpads : Pads "0X1f" ['0', 'X', '1', 'f'] := ⟨[], [], rfl, nofun, nofun⟩
  have hword : Grammar EitherCase (.text "0X1f") (Hex.denoted ['1', 'f']) :=
    .hex hpads (.inr rfl) (by simp) (by simp) (by simp [Hex.isDigit, Hex.digit?])
  have hvalue : Hex.denoted ['1', 'f'] = 31 := rfl
  have htrim : Text.trim Text.isBlank "0X1f".toList = ['0', 'X', '1', 'f'] := rfl
  have hrefused : parse (.text "0X1f") = .error (.invalidHex "0X1f") := parseText_of_capital htrim
  rw [hvalue] at hword
  intro h
  cases hrefused.symm.trans (h.mpr ⟨hword, by norm_num⟩)

end Word

end Settlement
