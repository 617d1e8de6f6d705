import Mathlib
import Settlement.Proofs.Bridge.Encoding

namespace Settlement.Bytecode

/-- The bytecode that is handed over: as bytes, or as its digits in either case, alone or behind a marker. -/
inductive Source.Holds : Source → Bytes → Prop
  | raw (code : Bytes) : Holds (.raw code) code
  | digits {s : String} {code : Bytes} (h : s.toList.map Char.toLower = Hex.encode code) : Holds (.text s) code
  | marked {s : String} {m : Char} {ds : List Char} {code : Bytes} (hs : s.toList = '0' :: m :: ds)
    (hm : m = 'x' ∨ m = 'X') (h : ds.map Char.toLower = Hex.encode code) : Holds (.text s) code

variable {code hashed : Bytes} {ds : List Char} {e : Error}

theorem isDigit_of_map_toLower (h : ds.map Char.toLower = Hex.encode code) : ∀ c ∈ ds, Hex.isDigit c = true := by
  intro c hc
  have hlower : c.toLower ∈ Hex.encode code := by
    rw [← h]
    exact List.mem_map_of_mem hc
  exact Hex.isDigit_of_toLower_mem_encode hlower

theorem length_of_map_toLower (h : ds.map Char.toLower = Hex.encode code) : ds.length = 2 * code.length := by
  rw [← Hex.length_encode, ← h, List.length_map]

theorem dropMarker_eq_self (h : ∀ c ∈ ds, Hex.isDigit c = true) : Hex.dropMarker ds = ds := by
  unfold Hex.dropMarker
  split
  · exact absurd (h 'x' (by simp)) (by decide)
  · exact absurd (h 'X' (by simp)) (by decide)
  · rfl

theorem ofText_of_dropMarker {s : String} (hs : Hex.dropMarker s.toList = ds) (heven : s.length % 2 = 0)
    (h : ds.map Char.toLower = Hex.encode code) : Hex.ofText s = .ok code := by
  have hascii : ds.all (·.toNat < 128) = true := by
    rw [List.all_eq_true]
    intro c hc
    have hdigit := Hex.toNat_of_isDigit (isDigit_of_map_toLower h c hc)
    rw [decide_eq_true_eq]
    omega
  have hodd : ¬s.length % 2 = 1 := by omega
  simp only [Hex.ofText, hs, hodd, hascii, Hex.decode?_eq_some_iff.mpr h, ↓reduceIte, not_true_eq_false]

theorem Source.Holds.read {source : Source} (h : source.Holds code) : source.read = .ok code := by
  cases h with
  | raw => rfl
  | @digits s _ h =>
    have hlen := length_of_map_toLower h
    rw [String.length_toList] at hlen
    have htext := ofText_of_dropMarker (dropMarker_eq_self (isDigit_of_map_toLower h)) (by omega) h
    rw [Source.read, htext]
    rfl
  | @marked s m ds _ hs hm h =>
    have hdrop : Hex.dropMarker s.toList = ds := by
      rw [hs]
      obtain rfl | rfl := hm <;> rfl
    have hlen := congrArg List.length hs
    rw [String.length_toList, List.length_cons, List.length_cons, length_of_map_toLower h] at hlen
    rw [Source.read, ofText_of_dropMarker hdrop (by omega) h]
    rfl

inductive Refused (code : Bytes) : Error → Prop
  | partialWord (h : code.length % 32 ≠ 0) : Refused code (.partialWord code.length)
  | tooLong {w : ℕ} (hw : code.length = 32 * w) (hlong : 65536 ≤ w) : Refused code (.tooLong w)
  | evenWords {w : ℕ} (hw : code.length = 32 * w) (hlong : w < 65536) (heven : w % 2 = 0) : Refused code (.evenWords w)

theorem refused_of_words (h : words code = .error e) : Refused code e := by
  have hmax : maxWords = 65536 := rfl
  simp only [words, hmax] at h
  split_ifs at h with hpartial hlong heven
  · cases h
    exact .partialWord hpartial
  · cases h
    exact .tooLong (by omega) hlong
  · cases h
    exact .evenWords (by omega) (not_le.mp hlong) heven

theorem refused_of_hash (h : hash code = .error e) : Refused code e := by
  obtain hwords | ⟨n, -, hlast⟩ := Except.bind_eq_error.mp h
  · exact refused_of_words hwords
  · cases hlast

theorem isHashable_iff : IsHashable code ↔ ∃ w, code.length = 32 * w ∧ w % 2 = 1 ∧ w < 65536 := by
  rw [IsHashable]
  constructor
  · rintro ⟨hfull, hbound, hodd⟩
    exact ⟨code.length / 32, by omega, hodd, hbound⟩
  · rintro ⟨w, hw, hodd, hbound⟩
    omega

theorem versioned_eq {w : ℕ} (hw : code.length = 32 * w) :
    versioned code = [1, 0, UInt8.ofNat (w / 256), UInt8.ofNat w] ++ (sha256 code).drop 4 := by
  rw [versioned, hw, Nat.mul_div_cancel_left w (by decide)]
  rfl

theorem toNat_length_bytes {w : ℕ} (hw : code.length = 32 * w) (hbound : w < 65536) :
    Bytes.toNat (((versioned code).drop 2).take 2) = w := by
  have hbytes : ((versioned code).drop 2).take 2 = Bytes.ofNat 2 w := by
    rw [versioned_eq hw]
    rfl
  rw [hbytes, Bytes.toNat_ofNat 2 (by omega)]

/-- Bytecodes of an odd number of words below 65536 have a hash, and others an error that says what is wrong with their
length. The hash has 32 bytes, and the length can be read from it. A bytecode has the same hash, or error, in all the
forms in which it can be handed over. -/
theorem hash_versioned (code : Bytes) :
    ((∃ hashed, hash code = .ok hashed) ↔ ∃ w, code.length = 32 * w ∧ w % 2 = 1 ∧ w < 65536) ∧
    (∀ e, hash code = .error e → Refused code e) ∧
    (∀ hashed, hash code = .ok hashed → ∃ w, code.length = 32 * w ∧
      hashed = [1, 0, UInt8.ofNat (w / 256), UInt8.ofNat w] ++ (sha256 code).drop 4 ∧ hashed.length = 32 ∧
        Bytes.toNat ((hashed.drop 2).take 2) = w) ∧
    ∀ source : Source, source.Holds code → hashSource source = hash code := by
  refine ⟨?_, fun e => refused_of_hash, ?_, ?_⟩
  · simp only [hash_eq_ok, exists_and_left, exists_eq, and_true, isHashable_iff]
  · intro hashed h
    have hlen := length_hash h
    obtain ⟨hcode, rfl⟩ := hash_eq_ok.mp h
    obtain ⟨w, hw, -, hbound⟩ := isHashable_iff.mp hcode
    exact ⟨w, hw, versioned_eq hw, hlen, toNat_length_bytes hw hbound⟩
  · intro source h
    rw [hashSource, h.read]
    rfl

def sampleCode : Bytes :=
  List.replicate 32 0xab

def sampleText : String :=
  String.ofList ('0' :: 'X' :: (List.replicate 32 ['a', 'B']).flatten)

theorem hash_versioned_sampleText : (Source.text sampleText).Holds sampleCode ∧
    hashSource (.text sampleText) = hash sampleCode ∧ ∃ hashed, hash sampleCode = .ok hashed ∧ hashed.length = 32 ∧
      Bytes.toNat ((hashed.drop 2).take 2) = 1 := by
  have hholds : (Source.text sampleText).Holds sampleCode :=
    .marked (String.toList_ofList ..) (.inr rfl) (by decide)
  obtain ⟨hok, -, hlayout, hsame⟩ := hash_versioned sampleCode
  obtain ⟨hashed, hhashed⟩ := hok.mpr ⟨1, rfl, rfl, by norm_num⟩
  obtain ⟨w, hw, -, hlen, hwords⟩ := hlayout hashed hhashed
  obtain rfl : w = 1 := by
    rw [sampleCode, List.length_replicate] at hw
    omega
  exact ⟨hholds, hsame _ hholds, hashed, hhashed, hlen, hwords⟩

end Settlement.Bytecode
