import Mathlib
import Settlement.Number.Decimal
import Settlement.Proofs.Key.Word

namespace Settlement.Decimal

variable {cs rest ds fs sign mantissa scale : List Char} {negative : Bool} {text : String} {c places : ℕ} {e : ℤ}

def Digits (cs : List Char) : Prop :=
  ∀ c ∈ cs, Text.isAsciiDigit c = true

inductive Sign : List Char → Bool → Prop
  | none : Sign [] false
  | plus : Sign ['+'] false
  | minus : Sign ['-'] true

inductive Mantissa : List Char → List Char → ℕ → Prop
  | whole {ds : List Char} (hne : ds ≠ []) (hds : Digits ds) : Mantissa ds ds 0
  | pointed {ds fs : List Char} (hne : ds ++ fs ≠ []) (hds : Digits ds) (hfs : Digits fs) :
    Mantissa (ds ++ '.' :: fs) (ds ++ fs) fs.length

inductive Scale : List Char → ℤ → Prop
  | none : Scale [] 0
  | exponent {c : Char} {sign ds : List Char} {negative : Bool} (hc : c = 'e' ∨ c = 'E') (hsign : Sign sign negative)
    (hne : ds ≠ []) (hds : Digits ds) :
    Scale (c :: (sign ++ ds)) (if negative then -(Word.decimalDenoted ds : ℤ) else Word.decimalDenoted ds)

inductive Denotes (text : String) : Bool → ℕ → ℤ → Prop
  | numeral {sign mantissa scale ds : List Char} {negative : Bool} {places : ℕ} {e : ℤ}
    (htext : normalize text = sign ++ (mantissa ++ scale)) (hsign : Sign sign negative)
    (hmantissa : Mantissa mantissa ds places) (hscale : Scale scale e) :
    Denotes text negative (Word.decimalDenoted ds) (e - places)

def Representable (c : ℕ) (e : ℤ) : Prop :=
  leading c e ≤ maxExponent ∧ minExponent ≤ e

def StartsUnsigned (cs : List Char) : Prop :=
  ∀ c ∈ cs.head?, c ≠ '+' ∧ c ≠ '-'

theorem splitSign_append (hsign : Sign sign negative) (hcs : StartsUnsigned cs) :
    Integer.splitSign (sign ++ cs) = (negative, cs) := by
  cases hsign with
  | plus => rfl
  | minus => rfl
  | none =>
    rw [List.nil_append]
    unfold Integer.splitSign
    split
    · exact absurd rfl (hcs '-' rfl).2
    · exact absurd rfl (hcs '+' rfl).1
    · rfl

theorem sign_of_splitSign (h : Integer.splitSign cs = (negative, rest)) :
    ∃ sign, cs = sign ++ rest ∧ Sign sign negative := by
  unfold Integer.splitSign at h
  split at h
  · cases h
    exact ⟨['-'], rfl, .minus⟩
  · cases h
    exact ⟨['+'], rfl, .plus⟩
  · cases h
    exact ⟨[], rfl, .none⟩

theorem Digits.startsUnsigned (hds : Digits ds) : StartsUnsigned ds := by
  intro c hc
  have hdigit := hds c (List.mem_of_mem_head? hc)
  refine ⟨?_, ?_⟩
  · rintro rfl
    cases hdigit
  · rintro rfl
    cases hdigit

theorem exponent?_eq_some : exponent? cs = some e ↔ Scale cs e := by
  constructor
  · intro h
    unfold exponent? at h
    split at h
    · cases h
      exact .none
    · rename_i c rest
      split at h
      rename_i negative ds hsplit
      obtain ⟨sign, rfl, hsign⟩ := sign_of_splitSign hsplit
      split at h
      · rename_i hshape
        obtain ⟨hc, hne, hds⟩ := hshape
        cases h
        have hds' : Digits ds := List.all_eq_true.mp hds
        rw [Word.value_eq hds']
        exact .exponent hc hsign (by simpa using hne) hds'
      · cases h
  · intro h
    cases h with
    | none => rfl
    | exponent hc hsign hne hds =>
      have hall := List.all_eq_true.mpr hds
      unfold exponent?
      simp only [splitSign_append hsign hds.startsUnsigned, hc, List.isEmpty_iff, hne, hall, Word.value_eq hds,
        not_false_eq_true, and_self, ↓reduceIte]

theorem takeWhile_append (hds : Digits ds) (hrest : rest.takeWhile Text.isAsciiDigit = []) :
    (ds ++ rest).takeWhile Text.isAsciiDigit = ds := by
  rw [List.takeWhile_append_of_pos hds, hrest, List.append_nil]

theorem Scale.head_not_digit (h : Scale scale e) : scale.takeWhile Text.isAsciiDigit = [] ∧
    scale.dropWhile Text.isAsciiDigit = scale ∧ ∀ more, scale ≠ '.' :: more := by
  cases h with
  | none => exact ⟨rfl, rfl, fun _ h => by cases h⟩
  | exponent hc _ _ _ =>
    obtain rfl | rfl := hc
    · exact ⟨rfl, rfl, fun _ h => by cases h⟩
    · exact ⟨rfl, rfl, fun _ h => by cases h⟩

def splitPoint : List Char → List Char × List Char
  | '.' :: more => (more.takeWhile Text.isAsciiDigit, more.dropWhile Text.isAsciiDigit)
  | cs => ([], cs)

theorem number_of_splitPoint (h : splitPoint (cs.dropWhile Text.isAsciiDigit) = (fs, rest)) :
    number negative cs =
      if (cs.takeWhile Text.isAsciiDigit).isEmpty ∧ fs.isEmpty then .error .malformed
      else match exponent? rest with
        | some e => ofParts negative (Integer.value 10 (cs.takeWhile Text.isAsciiDigit ++ fs)) (e - fs.length)
        | none => .error .malformed := by
  unfold splitPoint at h
  split at h
  · rename_i more hdrop
    cases h
    cases hscale : exponent? (more.dropWhile Text.isAsciiDigit) <;> simp only [number, hdrop, hscale]
  · rename_i hpoint
    cases h
    cases hscale : exponent? (cs.dropWhile Text.isAsciiDigit) <;> simp only [number, hscale]

theorem number_append (hmantissa : Mantissa mantissa ds places) (hscale : Scale scale e) :
    number negative (mantissa ++ scale) = ofParts negative (Word.decimalDenoted ds) (e - places) := by
  obtain ⟨htake, hdrop, hpoint⟩ := hscale.head_not_digit
  cases hmantissa with
  | whole hne hds =>
    have hsplit : splitPoint ((ds ++ scale).dropWhile Text.isAsciiDigit) = ([], scale) := by
      rw [List.dropWhile_append_of_pos hds, hdrop]
      unfold splitPoint
      split
      · exact absurd rfl (hpoint _)
      · rfl
    rw [number_of_splitPoint hsplit, takeWhile_append hds htake, if_neg (by simpa using hne),
      exponent?_eq_some.mpr hscale, List.append_nil, Word.value_eq hds]
    rfl
  | @pointed ds fs hne hds hfs =>
    have hsplit : splitPoint ((ds ++ '.' :: fs ++ scale).dropWhile Text.isAsciiDigit) = (fs, scale) := by
      rw [List.append_assoc, List.dropWhile_append_of_pos hds, List.cons_append, List.dropWhile_cons_of_neg (by decide),
        splitPoint, takeWhile_append hfs htake, List.dropWhile_append_of_pos hfs, hdrop]
    have hwhole : (ds ++ '.' :: fs ++ scale).takeWhile Text.isAsciiDigit = ds := by
      rw [List.append_assoc]
      exact takeWhile_append hds rfl
    rw [number_of_splitPoint hsplit, hwhole, if_neg (by simpa using hne), exponent?_eq_some.mpr hscale,
      Word.value_eq (List.forall_mem_append.mpr ⟨hds, hfs⟩)]

theorem exists_mantissa_of_splitPoint (hsplit : splitPoint (cs.dropWhile Text.isAsciiDigit) = (fs, rest))
    (hne : cs.takeWhile Text.isAsciiDigit ++ fs ≠ []) :
    ∃ mantissa ds places, cs = mantissa ++ rest ∧ Mantissa mantissa ds places := by
  have hdigits (cs : List Char) : Digits (cs.takeWhile Text.isAsciiDigit) := fun _ hc => List.mem_takeWhile_imp hc
  have hjoined := List.takeWhile_append_dropWhile (p := Text.isAsciiDigit) (l := cs)
  unfold splitPoint at hsplit
  split at hsplit
  · rename_i more hdrop
    cases hsplit
    rw [hdrop] at hjoined
    refine ⟨_, _, _, ?_, .pointed hne (hdigits cs) (hdigits more)⟩
    rw [List.append_assoc, List.cons_append, List.takeWhile_append_dropWhile, hjoined]
  · cases hsplit
    rw [List.append_nil] at hne
    exact ⟨_, _, _, hjoined.symm, .whole hne (hdigits cs)⟩

theorem exists_parts_of_number {d : Decimal} (h : number negative cs = .ok d) :
    ∃ mantissa scale ds places e, cs = mantissa ++ scale ∧ Mantissa mantissa ds places ∧ Scale scale e := by
  obtain ⟨⟨fs, rest⟩, hsplit⟩ : ∃ x, splitPoint (cs.dropWhile Text.isAsciiDigit) = x := ⟨_, rfl⟩
  rw [number_of_splitPoint hsplit] at h
  split at h
  · cases h
  · rename_i hne
    split at h
    · rename_i e hscale
      obtain ⟨mantissa, ds, places, hcs, hmantissa⟩ := exists_mantissa_of_splitPoint hsplit (by simpa using hne)
      exact ⟨mantissa, rest, ds, places, e, hcs, hmantissa, exponent?_eq_some.mp hscale⟩
    · cases h

theorem ofParts_eq_ok {d : Decimal} : ofParts negative c e = .ok d ↔ Representable c e ∧ d = .finite negative c e := by
  unfold ofParts
  split
  · rename_i h
    simp only [Except.ok.injEq, Representable, h, and_self, true_and, eq_comm]
  · rename_i h
    simp only [reduceCtorEq, Representable, h, false_and]

theorem Mantissa.head (h : Mantissa mantissa ds places) :
    ∃ c cs, mantissa = c :: cs ∧ (c = '.' ∨ Text.isAsciiDigit c = true) := by
  cases h with
  | whole hne hds =>
    obtain ⟨c, cs, rfl⟩ := List.exists_cons_of_ne_nil hne
    exact ⟨c, cs, rfl, .inr (hds c List.mem_cons_self)⟩
  | @pointed ds fs _ hds _ =>
    cases ds with
    | nil => exact ⟨'.', fs, rfl, .inl rfl⟩
    | cons c ds => exact ⟨c, ds ++ '.' :: fs, rfl, .inr (hds c List.mem_cons_self)⟩

theorem toLower_of_lt {c : Char} (h : c.toNat < 65) : c.toLower = c := by
  unfold Char.toLower
  rw [dif_neg]
  rintro ⟨hlow, -⟩
  exact absurd h (not_lt.mpr hlow)

theorem parse_of_splitSign (h : Integer.splitSign (normalize text) = (negative, cs)) :
    parse text =
      if cs.map Char.toLower = "inf".toList ∨ cs.map Char.toLower = "infinity".toList then .ok (.infinity negative)
      else if isNan (cs.map Char.toLower) then .ok .nan
      else number negative cs := by
  simp only [parse, h]

theorem parse_of_denotes (h : Denotes text negative c e) : parse text = ofParts negative c e := by
  obtain @⟨sign, mantissa, scale, ds, _, places, e, htext, hsign, hmantissa, hscale⟩ := h
  obtain ⟨c, cs, hcs, hc⟩ := hmantissa.head
  have hlow : c.toNat ≤ 57 := by
    obtain rfl | hc := hc
    · decide
    · exact (Word.ascii_of_isAsciiDigit hc).2
  have hunsigned : StartsUnsigned (mantissa ++ scale) := by
    rw [hcs]
    intro d hd
    cases hd
    obtain rfl | hc := hc
    · decide
    · exact Digits.startsUnsigned (List.forall_mem_singleton.mpr hc) c rfl
  -- a name starts with a letter
  have hname (d : Char) (hd : 58 ≤ d.toNat) (ds : List Char) : (mantissa ++ scale).map Char.toLower ≠ d :: ds := by
    rw [hcs, List.cons_append, List.map_cons, toLower_of_lt (by omega)]
    intro h
    obtain rfl := (List.cons.inj h).1
    omega
  have hnan : isNan ((mantissa ++ scale).map Char.toLower) = false := by
    unfold isNan
    split
    · rename_i h
      exact absurd h (hname 'n' (by decide) _)
    · rename_i h
      exact absurd h (hname 's' (by decide) _)
    · rfl
  rw [parse_of_splitSign (by rw [htext, splitSign_append hsign hunsigned]), if_neg, hnan, if_neg (by decide),
    number_append hmantissa hscale]
  exact not_or.mpr ⟨hname 'i' (by decide) _, hname 'i' (by decide) _⟩

theorem parse_eq_finite : parse text = .ok (.finite negative c e) ↔ Denotes text negative c e ∧ Representable c e := by
  constructor
  · intro h
    obtain ⟨⟨negative', cs⟩, hsplit⟩ : ∃ x, Integer.splitSign (normalize text) = x := ⟨_, rfl⟩
    have hread := h
    rw [parse_of_splitSign hsplit] at h
    split at h
    · cases h
    · split at h
      · cases h
      · obtain ⟨sign, htext, hsign⟩ := sign_of_splitSign hsplit
        obtain ⟨mantissa, scale, ds, places, e', rfl, hmantissa, hscale⟩ := exists_parts_of_number h
        have hdenotes := Denotes.numeral htext hsign hmantissa hscale
        rw [parse_of_denotes hdenotes] at hread
        obtain ⟨hrep, heq⟩ := ofParts_eq_ok.mp hread
        cases heq
        exact ⟨hdenotes, hrep⟩
  · rintro ⟨hdenotes, hrep⟩
    rw [parse_of_denotes hdenotes]
    exact ofParts_eq_ok.mpr ⟨hrep, rfl⟩

end Settlement.Decimal
