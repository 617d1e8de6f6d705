import Mathlib
import Settlement.Proofs.Json.Compact
import Settlement.Proofs.Json.Encoding

/-!
Integers of too many digits and brackets opened too deep. Reading is broken off by them just where so many digits stand
in a row, and where so many brackets stand at all.
-/

namespace Settlement.Json

open Bytes

variable {d : Dialect} {bs rest : Bytes} {t : Token} {n : ℕ}

section Suffixes

theorem skipSpace_suffix (bs : Bytes) : skipSpace bs <:+ bs :=
  List.dropWhile_suffix _

theorem expect_suffix {word : String} (h : expect word bs = some rest) : rest <:+ bs := by
  unfold expect at h
  simp only at h
  split at h
  · obtain rfl := Option.some.inj h
    exact List.drop_suffix _ _
  · cases h

theorem unicodeEscape?_suffix {k m : ℕ} (h : unicodeEscape? d k bs = some (m, rest)) : rest <:+ bs := by
  have hlone (h : (if d = .relaxed then some (k, bs) else none) = some (m, rest)) : rest <:+ bs := by
    split at h
    · obtain ⟨-, rfl⟩ := Prod.mk.inj (Option.some.inj h)
      exact List.suffix_rfl
    · cases h
  unfold unicodeEscape? at h
  simp only at h
  split at h
  · obtain ⟨-, rfl⟩ := Prod.mk.inj (Option.some.inj h)
    exact List.suffix_rfl
  split at h
  · exact hlone h
  split at h
  · split at h
    · split at h
      · obtain ⟨-, rfl⟩ := Prod.mk.inj (Option.some.inj h)
        exact (List.suffix_append [92, 117, _, _, _, _] _)
      · exact hlone h
    · cases h
  · exact hlone h

theorem scanString_suffix {fuel : ℕ} {acc s : Bytes} (h : scanString d fuel acc bs = some (s, rest)) : rest <:+ bs := by
  fun_induction scanString d fuel acc bs with
  | case1 => cases h
  | case2 => cases h
  | case3 =>
    obtain ⟨-, rfl⟩ := Prod.mk.inj (Option.some.inj h)
    exact List.suffix_cons _ _
  | case4 => cases h
  | case5 fuel acc b more _ _ _ ih => exact (ih h).trans (List.suffix_cons _ _)
  | case6 fuel acc b _ _ _ h1 h2 h3 h4 more k more' hescape ih =>
    obtain ⟨_, -, hunicode⟩ := Option.bind_eq_some_iff.mp hescape
    exact ((ih h).trans (unicodeEscape?_suffix hunicode)).trans (List.suffix_append [b, 117, h1, h2, h3, h4] more)
  | case7 => cases h
  | case8 fuel acc b _ _ _ e more _ c _ ih => exact (ih h).trans (List.suffix_append [b, e] more)
  | case9 => cases h
  | case10 => cases h

theorem scanFraction_suffix {ds : Bytes} (h : scanFraction bs = some (ds, rest)) : rest <:+ bs := by
  unfold scanFraction at h
  split at h
  · simp only at h
    split at h
    · cases h
    · obtain ⟨-, rfl⟩ := Prod.mk.inj (Option.some.inj h)
      exact (List.dropWhile_suffix _).trans (List.suffix_cons _ _)
  · obtain ⟨-, rfl⟩ := Prod.mk.inj (Option.some.inj h)
    exact List.suffix_rfl

theorem scanExponent_suffix {e : Option ℤ} (h : scanExponent bs = some (e, rest)) : rest <:+ bs := by
  unfold scanExponent at h
  split at h
  · rename_i b more
    split at h
    · split at h
      rename_i negative digits hsign
      have hdigits : digits <:+ more := by
        split at hsign
        all_goals obtain ⟨-, rfl⟩ := Prod.mk.inj hsign
        · exact List.suffix_cons _ _
        · exact List.suffix_cons _ _
        · exact List.suffix_rfl
      simp only at h
      split at h
      · cases h
      · obtain ⟨-, rfl⟩ := Prod.mk.inj (Option.some.inj h)
        exact ((List.dropWhile_suffix _).trans hdigits).trans (List.suffix_cons _ _)
    · obtain ⟨-, rfl⟩ := Prod.mk.inj (Option.some.inj h)
      exact List.suffix_rfl
  · obtain ⟨-, rfl⟩ := Prod.mk.inj (Option.some.inj h)
    exact List.suffix_rfl

end Suffixes

section Runs

def HasDigits (n : ℕ) (bs : Bytes) : Prop :=
  ∃ ds, ds <:+: bs ∧ ds.length = n ∧ ∀ b ∈ ds, isDigit b = true

theorem HasDigits.mono (h : HasDigits n rest) (hrest : rest <:+ bs) : HasDigits n bs := by
  obtain ⟨ds, hinfix, hlen, hds⟩ := h
  exact ⟨ds, hinfix.trans hrest.isInfix, hlen, hds⟩

theorem hasDigits_takeWhile (bs : Bytes) : HasDigits (bs.takeWhile isDigit).length bs :=
  ⟨_, (List.takeWhile_prefix _).isInfix, rfl, fun _ => List.mem_takeWhile_imp⟩

def isOpening (b : UInt8) : Bool := b == 91 || b == 123

def openings (bs : Bytes) : ℕ := bs.countP isOpening

theorem openings_mono (h : rest <:+ bs) : openings rest ≤ openings bs :=
  h.sublist.countP_le

structure Leaves (bs : Bytes) (t : Token) (rest : Bytes) : Prop where
  suffix : rest <:+ bs
  digits : ∀ n k, t = .integer n k → HasDigits n bs
  opened : t = .arrayStart ∨ t = .objectStart → openings rest < openings bs

theorem Leaves.mono {bs' : Bytes} (h : Leaves bs t rest) (hbs : bs <:+ bs') : Leaves bs' t rest :=
  ⟨h.suffix.trans hbs, fun n k ht => (h.digits n k ht).mono hbs, fun ht => (h.opened ht).trans_le (openings_mono hbs)⟩

theorem leaves_of_ne (h : rest <:+ bs) (ht : ∀ n k, t ≠ .integer n k) (hopen : t ≠ .arrayStart ∧ t ≠ .objectStart) :
    Leaves bs t rest :=
  ⟨h, fun n k heq => absurd heq (ht n k), fun heq => absurd heq (not_or.mpr hopen)⟩

theorem leaves_opening {b : UInt8} (hb : isOpening b = true) (ht : ∀ n k, t ≠ .integer n k) :
    Leaves (b :: rest) t rest := by
  refine ⟨List.suffix_cons _ _, fun n k heq => absurd heq (ht n k), fun _ => ?_⟩
  rw [openings, openings, List.countP_cons_of_pos hb]
  exact Nat.lt_succ_self _

theorem leaves_scanMagnitude {negative : Bool} (h : scanMagnitude negative bs = some (t, rest)) : Leaves bs t rest := by
  unfold scanMagnitude at h
  simp only [Option.bind_eq_bind] at h
  split at h
  · cases h
  · obtain ⟨⟨ds, more⟩, hfraction, h⟩ := Option.bind_eq_some_iff.mp h
    obtain ⟨⟨e, more'⟩, hexponent, h⟩ := Option.bind_eq_some_iff.mp h
    have hrest : more' <:+ bs := (scanExponent_suffix hexponent).trans
      ((scanFraction_suffix hfraction).trans (List.dropWhile_suffix _))
    simp only at h
    split at h
    · obtain ⟨rfl, rfl⟩ := Prod.mk.inj (Option.some.inj h)
      refine ⟨hrest, ?_, by simp⟩
      rintro n k ⟨⟩
      exact hasDigits_takeWhile bs
    · obtain ⟨rfl, rfl⟩ := Prod.mk.inj (Option.some.inj h)
      exact leaves_of_ne hrest (by simp) (by simp)

theorem leaves_scanNumber (h : scanNumber d bs = some (t, rest)) : Leaves bs t rest := by
  unfold scanNumber at h
  split at h
  · split at h
    · rename_i hword
      split at hword
      · obtain ⟨rfl, rfl⟩ := Prod.mk.inj (Option.some.inj h)
        exact leaves_of_ne ((expect_suffix hword).trans (List.suffix_cons _ _)) (by simp) (by simp)
      · cases hword
    · exact (leaves_scanMagnitude h).mono (List.suffix_cons _ _)
  · exact leaves_scanMagnitude h

theorem leaves_word {word : String} {u : Token} (hu : ∀ n k, u ≠ .integer n k)
    (hopen : u ≠ .arrayStart ∧ u ≠ .objectStart) (h : (expect word bs).map (u, ·) = some (t, rest)) :
    Leaves bs t rest := by
  obtain ⟨more, hexpect, hpair⟩ := Option.map_eq_some_iff.mp h
  obtain ⟨rfl, rfl⟩ := Prod.mk.inj hpair
  exact leaves_of_ne (expect_suffix hexpect) hu hopen

theorem leaves_scan (h : scan d bs = some (t, rest)) : Leaves bs t rest := by
  unfold scan at h
  split at h
  · cases h
  · split_ifs at h with _ _ _ harray hobject
    · exact leaves_word (by simp) (by simp) h
    · exact leaves_word (by simp) (by simp) h
    · exact leaves_word (by simp) (by simp) h
    · obtain ⟨rfl, rfl⟩ := Prod.mk.inj (Option.some.inj h)
      exact leaves_opening (harray ▸ rfl) (by simp)
    · obtain ⟨rfl, rfl⟩ := Prod.mk.inj (Option.some.inj h)
      exact leaves_opening (hobject ▸ rfl) (by simp)
    · obtain ⟨⟨s, more⟩, htext, hpair⟩ := Option.map_eq_some_iff.mp h
      obtain ⟨rfl, rfl⟩ := Prod.mk.inj hpair
      exact leaves_of_ne ((scanString_suffix htext).trans (List.suffix_cons _ _)) (by simp) (by simp)
    · exact leaves_word (by simp) (by simp) h
    · exact leaves_word (by simp) (by simp) h
    · exact leaves_scanNumber h

end Runs

section Readers

def Within {α : Type} (depth : ℕ) (bs : Bytes) : Read α → Prop
  | .ok (_, rest) => rest <:+ bs
  | .error (.tooManyDigits n) => Integer.maxDigits < n ∧ HasDigits n bs
  | .error .tooDeep => depth < openings bs
  | .error .malformed => True

theorem Within.mono {α : Type} {depth : ℕ} {x : Read α} (h : Within depth rest x) (hrest : rest <:+ bs) :
    Within depth bs x := by
  match x with
  | .ok _ => exact List.IsSuffix.trans h hrest
  | .error (.tooManyDigits _) => exact ⟨h.1, h.2.mono hrest⟩
  | .error .tooDeep => exact Nat.lt_of_lt_of_le h (openings_mono hrest)
  | .error .malformed => trivial

theorem Within.opened {α : Type} {depth : ℕ} {x : Read α} (h : Within depth rest x) (hrest : rest <:+ bs)
    (hopen : openings rest < openings bs) : Within (depth + 1) bs x := by
  -- a bracket is paid for by one level
  match x with
  | .ok _ => exact List.IsSuffix.trans h hrest
  | .error (.tooManyDigits _) => exact ⟨h.1, h.2.mono hrest⟩
  | .error .tooDeep => exact Nat.lt_of_lt_of_le (Nat.succ_lt_succ h) hopen
  | .error .malformed => trivial

theorem nextIs_suffix {b : UInt8} (h : nextIs b bs = some rest) : rest <:+ bs := by
  unfold nextIs at h
  split at h
  · rename_i c more hskip
    split at h
    · obtain rfl := Option.some.inj h
      exact (List.suffix_cons c _).trans (hskip ▸ skipSpace_suffix bs)
    · cases h
  · cases h

theorem suffix_of_skipSpace {c : UInt8} {more : Bytes} (h : skipSpace bs = c :: more) : more <:+ bs :=
  (List.suffix_cons c more).trans (h ▸ skipSpace_suffix bs)

theorem within_readName (depth : ℕ) (bs : Bytes) : Within depth bs (readName bs) := by
  unfold readName
  split
  · rename_i hscan
    split
    · rename_i hnext
      exact ((nextIs_suffix hnext).trans (leaves_scan hscan).suffix).trans (skipSpace_suffix bs)
    · trivial
  · trivial

structure ReadsWithin (fuel : ℕ) : Prop where
  value : ∀ depth bs, Within depth bs (readValue fuel depth bs)
  items : ∀ depth acc bs, Within depth bs (readItems fuel depth acc bs)
  fields : ∀ depth acc bs, Within depth bs (readFields fuel depth acc bs)

variable {fuel : ℕ}

theorem within_readValue (ih : ReadsWithin fuel) (depth : ℕ) (bs : Bytes) :
    Within depth bs (readValue (fuel + 1) depth bs) := by
  have hskip := skipSpace_suffix bs
  rw [readValue]
  split
  · trivial
  all_goals
    rename_i hscan
    have hleaves := (leaves_scan hscan).mono hskip
  · exact hleaves.suffix
  · exact hleaves.suffix
  · exact hleaves.suffix
  · split
    · rename_i hmany
      exact ⟨hmany, hleaves.digits _ _ rfl⟩
    · exact hleaves.suffix
  · exact hleaves.suffix
  · have hopen := hleaves.opened (.inl rfl)
    split
    · exact Nat.zero_lt_of_lt hopen
    · split
      · rename_i hnext
        exact (nextIs_suffix hnext).trans hleaves.suffix
      · exact (ih.items _ _ _).opened hleaves.suffix hopen
  · have hopen := hleaves.opened (.inr rfl)
    split
    · exact Nat.zero_lt_of_lt hopen
    · split
      · rename_i hnext
        exact (nextIs_suffix hnext).trans hleaves.suffix
      · exact (ih.fields _ _ _).opened hleaves.suffix hopen

theorem within_readItems (ih : ReadsWithin fuel) (depth : ℕ) (acc : List Value) (bs : Bytes) :
    Within depth bs (readItems (fuel + 1) depth acc bs) := by
  have hvalue := ih.value depth bs
  rw [readItems]
  split
  · rename_i e he
    rw [he] at hvalue
    exact hvalue
  · rename_i v rest hv
    rw [hv] at hvalue
    split
    · rename_i hclose
      exact (suffix_of_skipSpace hclose).trans hvalue
    · rename_i hcomma
      exact (ih.items _ _ _).mono ((suffix_of_skipSpace hcomma).trans hvalue)
    · trivial

theorem within_readFields (ih : ReadsWithin fuel) (depth : ℕ) (acc : List (Value × Value)) (bs : Bytes) :
    Within depth bs (readFields (fuel + 1) depth acc bs) := by
  have hname := within_readName depth bs
  rw [readFields]
  split
  · rename_i e he
    rw [he] at hname
    cases e <;> exact hname
  · rename_i name behind hn
    rw [hn] at hname
    have hvalue := (ih.value depth behind).mono hname
    split
    · rename_i e he
      rw [he] at hvalue
      exact hvalue
    · rename_i v rest hv
      rw [hv] at hvalue
      split
      · rename_i hclose
        exact (suffix_of_skipSpace hclose).trans hvalue
      · rename_i hcomma
        exact (ih.fields _ _ _).mono ((suffix_of_skipSpace hcomma).trans hvalue)
      · trivial

theorem readsWithin (fuel : ℕ) : ReadsWithin fuel := by
  induction fuel with
  | zero => exact ⟨fun _ _ => trivial, fun _ _ _ => trivial, fun _ _ _ => trivial⟩
  | succ fuel ih => exact ⟨within_readValue ih, within_readItems ih, within_readFields ih⟩

theorem readValue_brackets {depth : ℕ} (h : 2 * depth < fuel) :
    readValue fuel depth (List.replicate (depth + 1) 91) = .error .tooDeep := by
  -- a level takes two turns, one of the value and one of its first item
  have hscan (bs : Bytes) : scan .relaxed (skipSpace (91 :: bs)) = some (.arrayStart, bs) := rfl
  induction depth generalizing fuel with
  | zero =>
    obtain ⟨fuel, rfl⟩ : ∃ k, fuel = k + 1 := ⟨fuel - 1, by omega⟩
    rw [List.replicate_succ, readValue, hscan]
  | succ depth ih =>
    obtain ⟨fuel, rfl⟩ : ∃ k, fuel = k + 2 := ⟨fuel - 2, by omega⟩
    have hnext (bs : Bytes) : nextIs 93 (91 :: bs) = none := rfl
    rw [List.replicate_succ, readValue, hscan, List.replicate_succ]
    simp only [hnext]
    rw [readItems, ← List.replicate_succ, ih (by omega)]

section Parse

variable [Platform] {s : String}

theorem within_parse {e : ReadError} (h : parse s = .error e) :
    Within (α := Value) Platform.jsonDepth (ofString s) (.error e) := by
  obtain hread | ⟨⟨v, rest⟩, -, hlast⟩ := Except.bind_eq_error.mp h
  · have hwithin := (readsWithin (2 * (ofString s).length + 2)).value Platform.jsonDepth (ofString s)
    rw [hread] at hwithin
    cases e <;> exact hwithin
  · dsimp only at hlast
    split at hlast
    · cases hlast
    · cases hlast
      trivial

theorem hasDigits_of_parse (h : parse s = .error (.tooManyDigits n)) :
    Integer.maxDigits < n ∧ HasDigits n (ofString s) :=
  within_parse h

theorem lt_openings_of_parse (h : parse s = .error .tooDeep) : Platform.jsonDepth < openings (ofString s) :=
  within_parse h

theorem parse_of_long {n : ℕ} (h : 10 ^ Integer.maxDigits ≤ n) :
    parse (toString (n : ℤ)) = .error (.tooManyDigits (digitCount n)) := by
  obtain ⟨b, bs, hbytes, hb, -⟩ := head_integer n
  have hscan : scan .relaxed (ofString (toString (n : ℤ))) = some (.integer (digitCount n) n, []) := by
    have hends := scan_integer (d := .relaxed) (n : ℤ) Ends.nil.stops
    rwa [List.append_nil] at hends
  have hmany : digitCount n > Integer.maxDigits := by
    rw [gt_iff_lt, ← not_le, digitCount, Int.natAbs_natCast, Nat.length_toDigits_le_iff (by decide) (by decide)]
    exact not_lt.mpr h
  have hskip := skipSpace_of_head hbytes hb []
  rw [List.append_nil] at hskip
  rw [parse, parseBytes, readValue, hskip, hscan]
  simp only [hmany, ↓reduceIte]
  rfl

def nested (depth : ℕ) : String := String.ofList (List.replicate depth '[')

theorem parse_nested : parse (nested (Platform.jsonDepth + 1)) = .error .tooDeep := by
  have hbytes : ofString (nested (Platform.jsonDepth + 1)) = List.replicate (Platform.jsonDepth + 1) 91 := by
    rw [ofString_of_ascii, nested, String.toList_ofList, List.map_replicate]
    · rfl
    · rw [nested, String.toList_ofList]
      intro c hc
      rw [List.eq_of_mem_replicate hc]
      decide
  rw [parse, hbytes, parseBytes, readValue_brackets (by simp; omega)]
  rfl

end Parse

end Readers

end Settlement.Json
