import Mathlib
import Settlement.Proofs.Json.Compact
import Settlement.Proofs.Key.Word

namespace Settlement

open Json

def WrittenWord.IsPrintable : WrittenWord → Prop
  | .inl n => digitCount n ≤ Integer.maxDigits
  | .inr s => IsPlain s

theorem reads_word {w : WrittenWord} (h : w.IsPrintable) : Reads KeyDocument.word w.value w := by
  cases w with
  | inl n => exact reads_integerOrText_int h
  | inr s => exact reads_integerOrText_text h

theorem Json.reads_list {α : Type} {item : Reader α} {value : α → Value} {as : List α}
    (h : ∀ a ∈ as, Reads item (value a) a) : Reads (array item) (.list (as.map value)) as := by
  apply reads_array
  rw [List.forall₂_map_left_iff, List.forall₂_same]
  exact h

theorem reads_words {ws : List WrittenWord} (h : ∀ w ∈ ws, w.IsPrintable) :
    Reads (array KeyDocument.word) (KeyDocument.words ws) ws :=
  reads_list fun w hw => reads_word (h w hw)

theorem reads_points {xs : List (List WrittenWord)} (h : ∀ ws ∈ xs, ∀ w ∈ ws, w.IsPrintable) :
    Reads (array KeyDocument.point) (.list (xs.map KeyDocument.words)) xs :=
  reads_list fun ws hws => reads_words (h ws hws)

theorem Json.Steps.field {α σ : Type} {unknown : Unknown} {fields : List (String × (σ → Reader σ))} {k : String}
    {item : Reader α} {put : σ → α → σ} {v : Value} {a : α} {s s' : σ} {ts : List String} {depth : ℕ}
    (hplain : ∀ f ∈ fields, IsPlain f.1)
    (hfind : fields.find? (fun f => f.1 == k) = some (k, Json.field item put)) (h : Reads item v a)
    (hs : Steps (member unknown fields) (put s a) ts s') :
    Steps (member unknown fields) s ((quote .ascii k ++ ":" ++ print (.compact .ascii) depth v) :: ts) s' := by
  have hk : IsPlain k := hplain _ (List.mem_of_find?_eq_some hfind)
  refine .cons (written_member hk hfind ⟨(h depth).head, ?_⟩) hs
  intro rest hrest
  rw [Json.field, (h depth).reads rest hrest]
  rfl

theorem Json.Reads.finish {α β : Type} {read : Reader α} {whole : Reader β} {v : Value} {a : α} {b : β}
    (h : Reads read v a) (hwhole : ∀ bs rest, read bs = .ok (a, rest) → whole bs = .ok (b, rest)) :
    Reads whole v b := by
  intro depth
  exact ⟨(h depth).head, fun rest hrest => hwhole _ rest ((h depth).reads rest hrest)⟩

namespace KeyDocument

structure IsPrintable (d : KeyDocument) : Prop where
  domainSize : digitCount d.domainSize ≤ Integer.maxDigits
  numInputs : digitCount d.numInputs ≤ Integer.maxDigits
  omega : d.omega.IsPrintable
  gateSetup : ∀ ws ∈ d.gateSetup, ∀ w ∈ ws, w.IsPrintable
  gateSelectors : ∀ ws ∈ d.gateSelectors, ∀ w ∈ ws, w.IsPrintable
  permutation : ∀ ws ∈ d.permutation, ∀ w ∈ ws, w.IsPrintable
  lookupSelector : ∀ w ∈ d.lookupSelector, w.IsPrintable
  lookupTable : ∀ ws ∈ d.lookupTable, ∀ w ∈ ws, w.IsPrintable
  lookupTableType : ∀ w ∈ d.lookupTableType, w.IsPrintable
  nonResidues : ∀ w ∈ d.nonResidues, w.IsPrintable
  g2Elements : ∀ q ∈ d.g2Elements, ∀ ws ∈ q, ∀ w ∈ ws, w.IsPrintable

theorem plain_fields : ∀ f ∈ fields, IsPlain f.1 := by
  simp only [fields, List.forall_mem_cons, List.not_mem_nil, false_imp_iff, implies_true, and_true]
  decide

theorem decode_encode {d : KeyDocument} (h : d.IsPrintable) : decode (Bytes.ofString d.encode) = .ok d := by
  have hobject : Reads (object .refused fields {}) d.toValue
      ⟨some d.domainSize, some d.numInputs, some d.omega, some d.gateSetup, some d.gateSelectors, some d.permutation,
        some d.lookupSelector, some d.lookupTable, some d.lookupTableType, some d.nonResidues, some d.g2Elements⟩ := by
    apply reads_object
    intro depth
    refine .field plain_fields rfl (reads_integer h.domainSize) ?_
    refine .field plain_fields rfl (reads_integer h.numInputs) ?_
    refine .field plain_fields rfl (reads_word h.omega) ?_
    refine .field plain_fields rfl (reads_points h.gateSetup) ?_
    refine .field plain_fields rfl (reads_points h.gateSelectors) ?_
    refine .field plain_fields rfl (reads_points h.permutation) ?_
    refine .field plain_fields rfl (reads_words h.lookupSelector) ?_
    refine .field plain_fields rfl (reads_points h.lookupTable) ?_
    refine .field plain_fields rfl (reads_words h.lookupTableType) ?_
    refine .field plain_fields rfl (reads_words h.nonResidues) ?_
    refine .field plain_fields rfl (reads_list fun q hq => reads_points (h.g2Elements q hq)) ?_
    exact .nil _
  apply decode_compact
  apply hobject.finish
  intro bs rest h
  rw [reader, h]
  rfl

end KeyDocument

namespace ProofDocument

theorem plain_fields : ∀ f ∈ fields, IsPlain f.1 := by
  simp only [fields, List.forall_mem_cons, List.not_mem_nil, false_imp_iff, implies_true, and_true]
  decide

theorem decode_encode {d : ProofDocument} (hproof : ∀ w ∈ d.proof, w.IsPrintable)
    (hinputs : ∀ xs ∈ d.publicInputs, ∀ w ∈ xs, w.IsPrintable) : decode (Bytes.ofString d.encode) = .ok d := by
  obtain ⟨ws, inputs⟩ := d
  apply decode_compact
  apply Reads.finish (a := (⟨some ws, inputs⟩ : Draft)) (reads_object ?_)
  · intro bs rest h
    rw [reader, h]
    rfl
  · intro depth
    refine .field plain_fields rfl (reads_words hproof) ?_
    cases inputs with
    | none => exact .nil _
    | some xs =>
      refine .field plain_fields rfl (reads_optional (reads_words (hinputs xs rfl))) ?_
      exact .nil _

end ProofDocument

theorem Word.isPrintable_hexOfNat (n : ℕ) : WrittenWord.IsPrintable (.inr (hexOfNat n)) := by
  intro c hc
  rw [toList_hexOfNat, List.mem_cons, List.mem_cons] at hc
  obtain rfl | rfl | hc := hc
  · decide
  · decide
  · have hdigit := Hex.isDigit_of_mem_encode _ c hc
    have hascii := ascii_of_isDigit hdigit
    refine ⟨by omega, by omega, ?_, ?_⟩
    · rintro rfl
      cases hdigit
    · rintro rfl
      cases hdigit

end Settlement
