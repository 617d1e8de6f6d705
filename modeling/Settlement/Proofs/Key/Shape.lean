import Mathlib
import Settlement.Proofs.Key.Grammar

/-!
The shape of hexadecimal text. It is decided on the whole text but for two slips: a line break passes at the end, where
it counts as one more digit, and the marker `0X` is looked for but never passes.
-/

namespace Settlement

namespace Hex

def IsDigit (c : Char) : Prop :=
  '0' ≤ c ∧ c ≤ '9' ∨ 'a' ≤ c ∧ c ≤ 'f' ∨ 'A' ≤ c ∧ c ≤ 'F'

instance : DecidablePred IsDigit := fun c =>
  inferInstanceAs (Decidable ('0' ≤ c ∧ c ≤ '9' ∨ 'a' ≤ c ∧ c ≤ 'f' ∨ 'A' ≤ c ∧ c ≤ 'F'))

theorem isDigit_iff {c : Char} : isDigit c = true ↔ IsDigit c := by
  simp only [isDigit, digit?, IsDigit]
  split_ifs <;> simp_all

end Hex

namespace Word

/-- A marker, which may be missing where it is not asked for, digits, and what ends the text. Whatever stands behind the
marker is counted where an even number is asked for. -/
structure Parts (letters : List Char) (ends : List (List Char)) (requireMarker even : Bool)
    (front ds back : List Char) : Prop where
  marker : front = [] ∨ ∃ m ∈ letters, front = ['0', m]
  required : requireMarker = true → front ≠ []
  digits : ∀ c ∈ ds, Hex.IsDigit c
  ending : back ∈ ends
  parity : even = true → Even (ds ++ back).length

def Spelled (letters : List Char) (ends : List (List Char)) (requireMarker even : Bool) (cs : List Char) : Prop :=
  ∃ front ds back, cs = front ++ (ds ++ back) ∧ Parts letters ends requireMarker even front ds back

section Spelled

variable {letters letters' : List Char} {ends ends' : List (List Char)} {requireMarker even : Bool} {cs : List Char}

theorem mem_of_spelled (h : Spelled letters ends requireMarker even cs) {c : Char} (hc : c ∈ cs) :
    c = '0' ∨ c ∈ letters ∨ Hex.IsDigit c ∨ ∃ back ∈ ends, c ∈ back := by
  obtain ⟨front, ds, back, rfl, hparts⟩ := h
  obtain hc | hc := List.mem_append.mp hc
  · obtain rfl | ⟨m, hm, rfl⟩ := hparts.marker
    · cases hc
    · obtain rfl | hc := List.mem_cons.mp hc
      · exact .inl rfl
      · exact .inr (.inl (List.mem_singleton.mp hc ▸ hm))
  · obtain hc | hc := List.mem_append.mp hc
    · exact .inr (.inr (.inl (hparts.digits c hc)))
    · exact .inr (.inr (.inr ⟨back, hparts.ending, hc⟩))

theorem spelled_append_ends : Spelled letters (ends ++ ends') requireMarker even cs ↔
    Spelled letters ends requireMarker even cs ∨ Spelled letters ends' requireMarker even cs := by
  constructor
  · rintro ⟨front, ds, back, hcs, hparts⟩
    obtain hback | hback := List.mem_append.mp hparts.ending
    · exact .inl ⟨front, ds, back, hcs, { hparts with ending := hback }⟩
    · exact .inr ⟨front, ds, back, hcs, { hparts with ending := hback }⟩
  · rintro (⟨front, ds, back, hcs, hparts⟩ | ⟨front, ds, back, hcs, hparts⟩)
    · exact ⟨front, ds, back, hcs, { hparts with ending := List.mem_append_left _ hparts.ending }⟩
    · exact ⟨front, ds, back, hcs, { hparts with ending := List.mem_append_right _ hparts.ending }⟩

theorem spelled_append_letters : Spelled (letters ++ letters') ends requireMarker even cs ↔
    Spelled letters ends requireMarker even cs ∨ Spelled letters' ends true even cs := by
  constructor
  · rintro ⟨front, ds, back, hcs, hparts⟩
    obtain hfront | ⟨m, hm, hfront⟩ := hparts.marker
    · exact .inl ⟨front, ds, back, hcs, { hparts with marker := .inl hfront }⟩
    · obtain hm | hm := List.mem_append.mp hm
      · exact .inl ⟨front, ds, back, hcs, { hparts with marker := .inr ⟨m, hm, hfront⟩ }⟩
      · refine .inr ⟨front, ds, back, hcs, { hparts with marker := .inr ⟨m, hm, hfront⟩, required := fun _ => ?_ }⟩
        rw [hfront]
        exact List.cons_ne_nil _ _
  · rintro (⟨front, ds, back, hcs, hparts⟩ | ⟨front, ds, back, hcs, hparts⟩)
    · refine ⟨front, ds, back, hcs, { hparts with marker := hparts.marker.imp_right ?_ }⟩
      rintro ⟨m, hm, hfront⟩
      exact ⟨m, List.mem_append_left _ hm, hfront⟩
    · refine ⟨front, ds, back, hcs, { hparts with marker := hparts.marker.imp_right ?_, required := fun _ => ?_ }⟩
      · rintro ⟨m, hm, hfront⟩
        exact ⟨m, List.mem_append_right _ hm, hfront⟩
      · exact hparts.required rfl

end Spelled

theorem dropWhile_ends_iff (cs : List Char) :
    (match cs.dropWhile Hex.isDigit with
      | [] => true
      | ['\n'] => true
      | _ => false) = true ↔
      ∃ ds back, cs = ds ++ back ∧ (∀ c ∈ ds, Hex.IsDigit c) ∧ back ∈ [[], ['\n']] := by
  constructor
  · intro h
    refine ⟨cs.takeWhile Hex.isDigit, cs.dropWhile Hex.isDigit, List.takeWhile_append_dropWhile.symm, ?_, ?_⟩
    · intro c hc
      exact Hex.isDigit_iff.mp (List.mem_takeWhile_imp hc)
    · split at h
      · rename_i hdrop
        simp [hdrop]
      · rename_i hdrop
        simp [hdrop]
      · cases h
  · rintro ⟨ds, back, rfl, hds, hback⟩
    rw [List.dropWhile_append_of_pos fun c hc => Hex.isDigit_iff.mpr (hds c hc)]
    obtain rfl | hback := List.mem_cons.mp hback
    · rfl
    · rw [List.mem_singleton.mp hback]
      rfl

theorem hexShape_marked (cs : List Char) : hexShape ('0' :: 'x' :: cs) = true ↔
    ∃ ds back, cs = ds ++ back ∧ (∀ c ∈ ds, Hex.IsDigit c) ∧ back ∈ [[], ['\n']] :=
  dropWhile_ends_iff cs

theorem hexShape_unmarked {cs : List Char} (h : hasMarker cs = false) : hexShape cs = true ↔
    ∃ ds back, cs = ds ++ back ∧ (∀ c ∈ ds, Hex.IsDigit c) ∧ back ∈ [[], ['\n']] := by
  rewrite [← dropWhile_ends_iff, hexShape]
  · exact Iff.rfl
  · rintro rest rfl
    simp [hasMarker] at h

theorem hasMarker_eq_false {ds back : List Char} (hds : ∀ c ∈ ds, Hex.IsDigit c) (hback : back ∈ [[], ['\n']]) :
    hasMarker (ds ++ back) = false := by
  rw [Bool.eq_false_iff]
  intro h
  obtain ⟨m, rest, hcs, hm⟩ := hasMarker_iff.mp h
  have hmem : m ∈ ds ++ back := by
    rw [hcs]
    simp
  have hspelled : Hex.IsDigit m ∨ m = '\n' := by
    obtain hm | hm := List.mem_append.mp hmem
    · exact .inl (hds m hm)
    · obtain rfl | hback := List.mem_cons.mp hback
      · cases hm
      · rw [List.mem_singleton.mp hback] at hm
        exact .inr (List.mem_singleton.mp hm)
  obtain rfl | rfl := hm <;> revert hspelled <;> decide

theorem isHexText_marked {s : String} {cs : List Char} (hs : s.toList = '0' :: 'x' :: cs)
    (requireMarker even : Bool) : isHexText requireMarker even s = true ↔
      hexShape ('0' :: 'x' :: cs) = true ∧ (even = true → Even cs.length) := by
  have hmarker : hasMarker ('0' :: 'x' :: cs) = true := hasMarker_iff.mpr ⟨'x', cs, rfl, .inl rfl⟩
  cases even <;> simp [isHexText, hs, hmarker, Nat.even_iff]

theorem isHexText_unmarked {s : String} (h : hasMarker s.toList = false) (requireMarker even : Bool) :
    isHexText requireMarker even s = true ↔
      hexShape s.toList = true ∧ requireMarker = false ∧ (even = true → Even s.toList.length) := by
  cases even <;> simp [isHexText, h, Nat.even_iff, and_assoc]

theorem isHexText_iff (requireMarker even : Bool) (s : String) :
    isHexText requireMarker even s = true ↔ Spelled ['x'] [[], ['\n']] requireMarker even s.toList := by
  constructor
  · intro h
    cases hmarker : hasMarker s.toList with
    | false =>
      obtain ⟨hshape, hrequired, hparity⟩ := (isHexText_unmarked hmarker _ _).mp h
      obtain ⟨ds, back, hs, hds, hback⟩ := (hexShape_unmarked hmarker).mp hshape
      rw [hs] at hparity
      exact ⟨[], ds, back, hs, .inl rfl, by simp [hrequired], hds, hback, hparity⟩
    | true =>
      obtain ⟨m, cs, hs, rfl | rfl⟩ := hasMarker_iff.mp hmarker
      · obtain ⟨hshape, hparity⟩ := (isHexText_marked hs _ _).mp h
        obtain ⟨ds, back, rfl, hds, hback⟩ := (hexShape_marked cs).mp hshape
        exact ⟨['0', 'x'], ds, back, hs, .inr ⟨'x', by simp, rfl⟩, by simp, hds, hback, hparity⟩
      · simp [isHexText, hs, not_hexShape_capital] at h
  · rintro ⟨front, ds, back, hs, hparts⟩
    have hbody : ∃ ds' back', ds ++ back = ds' ++ back' ∧ (∀ c ∈ ds', Hex.IsDigit c) ∧ back' ∈ [[], ['\n']] :=
      ⟨ds, back, rfl, hparts.digits, hparts.ending⟩
    obtain rfl | ⟨m, hm, rfl⟩ := hparts.marker
    · have hmarker : hasMarker s.toList = false := by
        rw [hs, List.nil_append]
        exact hasMarker_eq_false hparts.digits hparts.ending
      have hrequired : requireMarker = false := Bool.eq_false_iff.mpr fun h => hparts.required h rfl
      refine (isHexText_unmarked hmarker _ _).mpr ⟨(hexShape_unmarked hmarker).mpr ?_, hrequired, ?_⟩
      · rwa [hs]
      · rw [hs]
        exact hparts.parity
    · rw [List.mem_singleton.mp hm] at hs
      exact (isHexText_marked hs _ _).mpr ⟨(hexShape_marked _).mpr hbody, hparts.parity⟩

theorem newline_mem_of_spelled {letters : List Char} {requireMarker even : Bool} {cs : List Char}
    (h : Spelled letters [['\n']] requireMarker even cs) : '\n' ∈ cs := by
  obtain ⟨front, ds, back, rfl, hparts⟩ := h
  rw [List.mem_singleton.mp hparts.ending]
  simp

theorem letter_mem_of_spelled {m : Char} {ends : List (List Char)} {even : Bool} {cs : List Char}
    (h : Spelled [m] ends true even cs) : m ∈ cs := by
  obtain ⟨front, ds, back, rfl, hparts⟩ := h
  obtain ⟨k, hk, rfl⟩ := hparts.marker.resolve_left (hparts.required rfl)
  rw [List.mem_singleton.mp hk]
  simp

theorem isHex_agrees_iff (requireMarker even : Bool) (s : String) :
    ((isHex requireMarker even (.text s) = true ↔ Spelled ['x', 'X'] [[]] requireMarker even s.toList) ↔
      ¬Spelled ['x'] [['\n']] requireMarker even s.toList ∧ ¬Spelled ['X'] [[]] true even s.toList) := by
  have hends : Spelled ['x'] ([[]] ++ [['\n']]) requireMarker even s.toList ↔ _ := spelled_append_ends
  have hletters : Spelled (['x'] ++ ['X']) [[]] requireMarker even s.toList ↔ _ := spelled_append_letters
  rw [isHex, isHexText_iff]
  rw [List.singleton_append] at hends hletters
  rw [hends, hletters]
  -- the three kinds of text exclude one another: one has the break, one the large letter, and one neither
  have hplain (h : Spelled ['x'] [[]] requireMarker even s.toList) : '\n' ∉ s.toList ∧ 'X' ∉ s.toList :=
    ⟨fun hc => absurd (mem_of_spelled h hc) (by decide), fun hc => absurd (mem_of_spelled h hc) (by decide)⟩
  have hbreak (h : Spelled ['x'] [['\n']] requireMarker even s.toList) : '\n' ∈ s.toList ∧ 'X' ∉ s.toList :=
    ⟨newline_mem_of_spelled h, fun hc => absurd (mem_of_spelled h hc) (by decide)⟩
  have hcapital (h : Spelled ['X'] [[]] true even s.toList) : 'X' ∈ s.toList := letter_mem_of_spelled h
  tauto

theorem isHex_eq_true_iff {requireMarker even : Bool} {v : Value} : isHex requireMarker even v = true ↔
    ∃ s, v = .text s ∧ Spelled ['x'] [[], ['\n']] requireMarker even s.toList := by
  cases v with
  | text s => simp [isHex, isHexText_iff]
  | _ => simp [isHex]

/-- A value passes exactly if it is text spelled with a small marker, and with nothing or a line break at its end. On
text this is the shape with a marker in either case and nothing at the end, unless a line break passes or a large marker
does not. -/
theorem isHex_decides (requireMarker even : Bool) :
    (∀ v, isHex requireMarker even v = true ↔
      ∃ s, v = .text s ∧ Spelled ['x'] [[], ['\n']] requireMarker even s.toList) ∧
    ∀ s, ((isHex requireMarker even (.text s) = true ↔ Spelled ['x', 'X'] [[]] requireMarker even s.toList) ↔
      ¬Spelled ['x'] [['\n']] requireMarker even s.toList ∧ ¬Spelled ['X'] [[]] true even s.toList) :=
  ⟨fun _ => isHex_eq_true_iff, isHex_agrees_iff requireMarker even⟩

theorem not_isHex_spelled_lineBreak_capital :
    ¬(isHex false false (.text "ab\n") = true ↔ Spelled ['x', 'X'] [[]] false false "ab\n".toList) ∧
      ¬(isHex false true (.text "0X1f") = true ↔ Spelled ['x', 'X'] [[]] false true "0X1f".toList) := by
  have hbreak : Spelled ['x'] [['\n']] false false "ab\n".toList :=
    ⟨[], ['a', 'b'], ['\n'], rfl, .inl rfl, nofun, by simp [Hex.IsDigit], by simp, nofun⟩
  have hcapital : Spelled ['X'] [[]] true true "0X1f".toList :=
    ⟨['0', 'X'], ['1', 'f'], [], rfl, .inr ⟨'X', by simp, rfl⟩, by simp, by simp [Hex.IsDigit], by simp, by simp⟩
  constructor
  · exact fun h => ((isHex_agrees_iff _ _ _).mp h).1 hbreak
  · exact fun h => ((isHex_agrees_iff _ _ _).mp h).2 hcapital

end Word

end Settlement
