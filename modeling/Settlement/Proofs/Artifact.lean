import Mathlib
import Settlement.Proofs.Bytecode
import Settlement.Proofs.Json.Files
import Settlement.Proofs.Json.Limits

namespace Settlement

namespace Hex

def Spells (front : List Char) (s : String) (code : Bytes) : Prop :=
  ∃ marker ∈ ["", "0x", "0X"], ∃ ds, s.toList = marker.toList ++ ds ∧ front ++ ds.map Char.toLower = encode code

variable {front ds : List Char} {s marker : String} {code : Bytes}

theorem exists_marker (cs : List Char) : ∃ marker ∈ ["", "0x", "0X"], cs = marker.toList ++ dropMarker cs := by
  unfold dropMarker
  split
  · exact ⟨"0x", by simp, rfl⟩
  · exact ⟨"0X", by simp, rfl⟩
  · exact ⟨"", by simp, rfl⟩

theorem isDigit_of_append (h : front ++ ds.map Char.toLower = encode code) : ∀ c ∈ ds, isDigit c = true := by
  intro c hc
  have hlower : c.toLower ∈ encode code := by
    rw [← h]
    exact List.mem_append_right _ (List.mem_map_of_mem hc)
  exact isDigit_of_toLower_mem_encode hlower

theorem dropMarker_append (hmarker : marker ∈ ["", "0x", "0X"]) (hds : ∀ c ∈ ds, isDigit c = true) :
    dropMarker (marker.toList ++ ds) = ds := by
  simp only [List.mem_cons, List.not_mem_nil, or_false] at hmarker
  obtain rfl | rfl | rfl := hmarker
  · exact Bytecode.dropMarker_eq_self hds
  · rfl
  · rfl

theorem length_marker_even (hmarker : marker ∈ ["", "0x", "0X"]) : marker.length % 2 = 0 := by
  simp only [List.mem_cons, List.not_mem_nil, or_false] at hmarker
  obtain rfl | rfl | rfl := hmarker <;> rfl

def evenDigits (s : String) : List Char :=
  if s.length % 2 = 1 then '0' :: dropMarker s.toList else dropMarker s.toList

theorem ofText_eq_ok_of_evenDigits : ofText s = .ok code ↔ (evenDigits s).map Char.toLower = encode code := by
  rw [← decode?_eq_some_iff, ofText, ← evenDigits]
  constructor
  · intro h
    split at h
    · cases h
    · split at h
      · rename_i hdecode
        rw [hdecode, Except.ok.inj h]
      · cases h
  · intro h
    have hascii : (evenDigits s).all (·.toNat < 128) = true := by
      rw [List.all_eq_true]
      intro c hc
      have hdigits : [] ++ (evenDigits s).map Char.toLower = encode code := decode?_eq_some_iff.mp h
      have hdigit := toNat_of_isDigit (isDigit_of_append hdigits c hc)
      rw [decide_eq_true_eq]
      omega
    simp only [hascii, h, not_true_eq_false, ↓reduceIte]

theorem ofText_eq_ok : ofText s = .ok code ↔ Spells [] s code ∨ Spells ['0'] s code := by
  rw [ofText_eq_ok_of_evenDigits, evenDigits]
  constructor
  · intro h
    obtain ⟨marker, hmarker, hs⟩ := exists_marker s.toList
    split at h
    · exact .inr ⟨marker, hmarker, _, hs, h⟩
    · exact .inl ⟨marker, hmarker, _, hs, h⟩
  · rintro (⟨marker, hmarker, ds, hs, h⟩ | ⟨marker, hmarker, ds, hs, h⟩)
    all_goals
      have heven := length_marker_even hmarker
      have hlen := congrArg List.length h
      have hsum := congrArg List.length hs
      rw [hs, dropMarker_append hmarker (isDigit_of_append h)]
      rw [length_encode] at hlen
      simp only [String.length_toList, List.length_append, List.length_map, List.length_cons, List.length_nil]
        at hlen hsum
    · rw [if_neg (by omega)]
      exact h
    · rw [if_pos (by omega)]
      exact h

end Hex

namespace Artifact

variable [Platform] {contract path : String} {content : Option Bytes} {code : Bytes} {e : Error}

/-- The text under `bytecode` spells the bytes, alone or with a zero in front. -/
def Contains (content : Option Bytes) (code : Bytes) : Prop :=
  ∃ s, Json.Holds content "bytecode" (.text s) ∧ (Hex.Spells [] s code ∨ Hex.Spells ['0'] s code)

inductive Refused (contract path : String) (content : Option Bytes) : Error → Prop
  | field {e : FieldError} (h : Json.Lacks "bytecode" content e) (he : e ≠ .json .tooDeep) :
    Refused contract path content (.field contract path e)
  | tooDeep (h : Json.Lacks "bytecode" content (.json .tooDeep)) : Refused contract path content .tooDeep
  | notHex {v : Value} (h : Json.Holds content "bytecode" v)
    (hv : ∀ s code, v = .text s → ¬(Hex.Spells [] s code ∨ Hex.Spells ['0'] s code)) :
    Refused contract path content (.notHex path)

theorem ofContent_of_contains (h : Contains content code) : ofContent contract path content = .ok code := by
  obtain ⟨s, hs, hcode⟩ := h
  simp only [ofContent, readField_of_holds hs, Hex.ofText_eq_ok.mpr hcode]

theorem ofContent_of_refused (h : Refused contract path content e) : ofContent contract path content = .error e := by
  cases h with
  | @field e h he =>
    rw [ofContent, readField_of_lacks h]
    cases e with
    | json e =>
      cases e with
      | tooDeep => exact absurd rfl he
      | _ => rfl
    | _ => rfl
  | tooDeep h => rw [ofContent, readField_of_lacks h]
  | @notHex v h hv =>
    rw [ofContent, readField_of_holds h]
    cases v with
    | text s =>
      cases hs : Hex.ofText s with
      | error e => simp only [hs]
      | ok code => exact absurd (Hex.ofText_eq_ok.mp hs) (hv s code rfl)
    | _ => rfl

theorem contains_or_refused (contract path : String) (content : Option Bytes) :
    (∃ code, Contains content code) ∨ ∃ e, Refused contract path content e := by
  obtain ⟨v, hv⟩ | ⟨e, he⟩ := holds_or_lacks content "bytecode"
  · by_cases h : ∃ s code, v = .text s ∧ (Hex.Spells [] s code ∨ Hex.Spells ['0'] s code)
    · obtain ⟨s, code, rfl, hcode⟩ := h
      exact .inl ⟨code, s, hv, hcode⟩
    · exact .inr ⟨_, .notHex hv fun s code hs hcode => h ⟨s, code, hs, hcode⟩⟩
  · by_cases hdeep : e = .json .tooDeep
    · exact .inr ⟨_, .tooDeep (hdeep ▸ he)⟩
    · exact .inr ⟨_, .field he hdeep⟩

theorem ofContent_eq_ok : ofContent contract path content = .ok code ↔ Contains content code := by
  refine ⟨fun h => ?_, ofContent_of_contains⟩
  obtain ⟨code', hcode⟩ | ⟨e, he⟩ := contains_or_refused contract path content
  · obtain rfl := Except.ok.inj ((ofContent_of_contains hcode).symm.trans h)
    exact hcode
  · cases (ofContent_of_refused he).symm.trans h

theorem ofContent_eq_error : ofContent contract path content = .error e ↔ Refused contract path content e := by
  refine ⟨fun h => ?_, ofContent_of_refused⟩
  obtain ⟨code, hcode⟩ | ⟨e', he⟩ := contains_or_refused contract path content
  · cases (ofContent_of_contains hcode).symm.trans h
  · obtain rfl := Except.error.inj ((ofContent_of_refused he).symm.trans h)
    exact he

def Error.IsReported (e : Error) : Prop := e ≠ .tooDeep

theorem reported_or_deep (h : Refused contract path content e) :
    e.IsReported ∨ ∃ bs, content = some bs ∧ Platform.jsonDepth < Json.openings bs := by
  cases h with
  | field => exact .inl nofun
  | tooDeep h => exact .inr (lt_openings_of_lacks h)
  | notHex => exact .inl nofun

theorem ofContent_of_nested (contract path : String) :
    ofContent contract path (some (Bytes.ofString (Json.nested (Platform.jsonDepth + 1)))) = .error .tooDeep :=
  ofContent_of_refused (.tooDeep (.json Json.parse_nested))

theorem run_load {σ : Type} (directory : Path) (contract : String) (around : Session.Surroundings σ)
    (p : Session.Progress σ) : Session.run around (load directory contract).run p =
      (ofContent contract (file directory contract).toString (around.files (file directory contract).toString).content?,
        p) := rfl

/-- The file of a contract is read, and nothing else is done. Its bytecode is what the digits under `bytecode` spell,
with a zero in front of them if they are odd in number; a file without such digits is an error that says what is wrong
with it. The error is reported unless more brackets stand in the file than may be open at once; so many that are opened
one in another break the reading off. -/
theorem load_reads {σ : Type} (directory : Path) (contract : String) (around : Session.Surroundings σ)
    (p : Session.Progress σ) :
    (∃ r, Session.run around (load directory contract).run p = (r, p) ∧
      (∀ code, r = .ok code ↔ Contains (around.files (file directory contract).toString).content? code) ∧
      (∀ e, r = .error e ↔ Refused contract (file directory contract).toString
        (around.files (file directory contract).toString).content? e) ∧
      ∀ e, r = .error e → e.IsReported ∨ ∃ bs,
        (around.files (file directory contract).toString).content? = some bs ∧ Platform.jsonDepth < Json.openings bs) ∧
    ∀ path, ofContent contract path (some (Bytes.ofString (Json.nested (Platform.jsonDepth + 1)))) = .error .tooDeep := by
  refine ⟨⟨_, run_load directory contract around p, fun _ => ofContent_eq_ok, fun _ => ofContent_eq_error, ?_⟩,
    ofContent_of_nested contract⟩
  exact fun e he => reported_or_deep (ofContent_eq_error.mp he)

def halfByteFile : String := "\x7b\"bytecode\":\"0x123\"\x7d"

omit [Platform] in
theorem not_load_exact_halfByte :
    letI := Platform.standard
    ¬∀ content code, ofContent "Thing" "Thing.json" content = .ok code ↔
    ∃ s, Json.Holds content "bytecode" (.text s) ∧ Hex.Spells [] s code := by
  let := Platform.standard
  intro h
  have hread : ofContent "Thing" "Thing.json" (some (Bytes.ofString halfByteFile)) = .ok [0x01, 0x23] := by
    decide +kernel
  obtain ⟨s, hs, marker, hmarker, ds, hds, hcode⟩ := (h _ _).mp hread
  have htext : readField (some (Bytes.ofString halfByteFile)) "bytecode" = .ok (.text "0x123") := by cbv
  obtain rfl := Value.text.inj (Except.ok.inj ((readField_of_holds hs).symm.trans htext))
  have hsum := congrArg List.length hds
  have hlen := congrArg List.length hcode
  have heven := Hex.length_marker_even hmarker
  have hfive : "0x123".length = 5 := rfl
  rw [Hex.length_encode] at hlen
  simp only [String.length_toList, List.length_append, List.length_map, List.length_cons, List.length_nil]
    at hsum hlen
  omega

end Artifact

end Settlement
