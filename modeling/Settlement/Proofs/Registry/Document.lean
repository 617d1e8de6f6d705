import Mathlib
import Settlement.Proofs.Address
import Settlement.Proofs.Except
import Settlement.Proofs.Json.Values
import Settlement.Proofs.Registry.History
import Settlement.Registry.Document

namespace Settlement.Registry

variable {r : Registry} {v : Value} {e : ℕ × Address} {es : Entries} {fields : Fields}

theorem under_eq_ok {α : Type} {name : String} {x : Checked α} {a : α} : under name x = .ok a ↔ x = .ok a :=
  Except.mapError_eq_ok

def chainValue? (fields : Fields) : Option Value :=
  (Value.field? fields "chainId").or (Value.field? fields "chain_id")

theorem chainField_eq_ok {n : ℕ} :
    (chainField fields).2 = .ok n ↔ ∃ v, chainValue? fields = some v ∧ checkChain v = .ok n := by
  unfold chainField chainValue?
  cases Value.field? fields "chainId" with
  | some v => simp [under_eq_ok]
  | none =>
    cases Value.field? fields "chain_id" with
    | some v => simp [under_eq_ok]
    | none => simp [under_eq_ok]

section Text

theorem isPlain_checksum (a : Address) : Json.IsPlain a.checksum := by
  intro c hc
  rw [Address.toList_checksum] at hc
  simp only [List.mem_cons] at hc
  obtain rfl | rfl | hc := hc
  · decide
  · decide
  · have hdigit := Hex.toNat_of_isDigit (Address.isDigit_of_mem_mixedDigits a c hc)
    refine ⟨by omega, by omega, ?_, ?_⟩
    all_goals
      rintro rfl
      revert hdigit
      decide

theorem portable_entryValue (h : e.1 < 10 ^ Integer.maxDigits) : Json.Portable 1 (entryValue e) := by
  have hnames : ["chainId", "executor"].Nodup ∧ Json.IsPlain "chainId" ∧ Json.IsPlain "executor" := by decide
  refine .object ?_ hnames.1 ?_
  · exact List.forall_mem_cons.mpr ⟨hnames.2.1, List.forall_mem_singleton.mpr hnames.2.2⟩
  · refine List.forall_mem_cons.mpr ⟨.int ?_, List.forall_mem_singleton.mpr (.text (isPlain_checksum e.2))⟩
    rw [Json.digitCount, Int.natAbs_natCast]
    exact Nat.toDigits_length 10 e.1 _ (by decide) h

theorem portable_toDocument (h : ∀ e ∈ r.entries, e.1 < 10 ^ Integer.maxDigits) : Json.Portable 3 r.toDocument := by
  have hname : Json.IsPlain "entries" := by decide
  refine .object ?_ (List.nodup_singleton _) ?_
  · rw [List.forall_mem_singleton]
    exact hname
  · rw [List.forall_mem_singleton]
    refine .list ?_
    rw [List.forall_mem_map]
    exact fun e he => portable_entryValue (h e he)

end Text

theorem isUnicode_of_extras {known : List String} (h : extras known fields = []) : isUnicode fields = true := by
  rw [extras, List.map_eq_nil_iff, List.filter_eq_nil_iff] at h
  rw [isUnicode, List.all_eq_true]
  rintro ⟨k, v⟩ he
  cases k with
  | halves bs => simpa [Value.isKey] using h _ he
  | _ => rfl

section Check

variable [Platform]

theorem checkExecutor_eq_ok {a : Address} : checkExecutor v = .ok a ↔ ∃ s, v = .text s ∧ Address.Reads s a := by
  cases v with
  | text s => simp [checkExecutor, Address.ofText_eq_ok]
  | _ => simp [checkExecutor]

theorem executorField_eq_ok {a : Address} :
    executorField fields = .ok a ↔ ∃ s, Value.field? fields "executor" = some (.text s) ∧ Address.Reads s a := by
  rw [executorField, under_eq_ok]
  cases Value.field? fields "executor" with
  | none => simp
  | some v => simp [checkExecutor_eq_ok]

def IsEntry (v : Value) (e : ℕ × Address) : Prop :=
  ∃ fields, v = .mapping fields ∧ (∃ c, chainValue? fields = some c ∧ checkChain c = .ok e.1) ∧
    ∃ s, Value.field? fields "executor" = some (.text s) ∧ Address.Reads s e.2

theorem checkEntry_eq_ok : checkEntry v = .ok e ↔ ∃ fields, v = .mapping fields ∧
    (∃ c, chainValue? fields = some c ∧ checkChain c = .ok e.1) ∧
    (∃ s, Value.field? fields "executor" = some (.text s) ∧ Address.Reads s e.2) ∧
    extras [(chainField fields).1, "executor"] fields = [] := by
  cases v with
  | mapping fields =>
    simp only [checkEntry, Value.mapping.injEq, exists_eq_left', ← chainField_eq_ok, ← executorField_eq_ok]
    constructor
    · intro h
      split at h
      · cases h
      · split at h
        · rename_i hchain hexecutor hextras
          obtain rfl := Except.ok.inj h
          exact ⟨hchain, hexecutor, hextras⟩
        · cases h
    · rintro ⟨hchain, hexecutor, hextras⟩
      rw [isUnicode_of_extras hextras, hchain, hexecutor, hextras]
      rfl
  | _ => simp [checkEntry]

theorem checkEntries_eq_ok {start : ℕ} {items : List Value} :
    checkEntries start items = .ok es ↔ List.Forall₂ (fun v e => checkEntry v = .ok e) items es := by
  induction items generalizing start es with
  | nil => simp [checkEntries, eq_comm]
  | cons v items ih =>
    constructor
    · intro h
      rw [checkEntries] at h
      split at h
      · rename_i hv hitems
        obtain rfl := Except.ok.inj h
        exact .cons (under_eq_ok.mp hv) (ih.mp hitems)
      · cases h
    · intro h
      cases h with
      | cons hv hitems => rw [checkEntries, under_eq_ok.mpr hv, ih.mpr hitems]

theorem checkList_eq_ok : checkList v = .ok es ↔ ∃ items, v = .list items ∧
    List.Forall₂ (fun v e => checkEntry v = .ok e) items es ∧ (es.map (·.1)).Nodup := by
  cases v with
  | list items =>
    simp only [checkList, Except.bind_eq_ok, checkEntries_eq_ok, Value.list.injEq, exists_eq_left']
    constructor
    · rintro ⟨es', hes', h⟩
      split at h
      · rename_i hnodup
        obtain rfl := Except.ok.inj h
        exact ⟨hes', hnodup⟩
      · cases h
    · rintro ⟨hes, hnodup⟩
      exact ⟨es, hes, if_pos hnodup⟩
  | _ => simp [checkList]

theorem checkDocument_eq_ok : checkDocument v = .ok es ↔ ∃ fields, v = .mapping fields ∧ extras ["entries"] fields = [] ∧
    (Value.field? fields "entries" = none ∧ es = [] ∨
      ∃ v, Value.field? fields "entries" = some v ∧ checkList v = .ok es) := by
  cases v with
  | mapping fields =>
    by_cases hunicode : isUnicode fields = true
    case neg =>
      have hextras : extras ["entries"] fields ≠ [] := fun h => hunicode (isUnicode_of_extras h)
      simp [checkDocument, hunicode, hextras]
    simp only [checkDocument, hunicode, Bool.not_true, Bool.false_eq_true, ↓reduceIte, Value.mapping.injEq,
      exists_eq_left']
    cases Value.field? fields "entries" with
    | none =>
      cases extras ["entries"] fields with
      | nil => simp [eq_comm]
      | cons => simp
    | some v =>
      have hlist : under "entries" (checkList v) = .ok es ↔ checkList v = .ok es := under_eq_ok
      cases hunder : under "entries" (checkList v) with
      | error ds =>
        rw [hunder] at hlist
        simp [← hlist, hunder]
      | ok es' =>
        rw [hunder] at hlist
        cases extras ["entries"] fields <;> simp [← hlist, hunder]
  | _ => simp [checkDocument]

theorem ofDocument_eq_ok : ofDocument v = .ok r ↔ ∃ es, checkDocument v = .ok es ∧ r = ofEntries es := by
  cases hcheck : checkDocument v with
  | error ds => simp [ofDocument, hcheck]
  | ok es => simp [ofDocument, hcheck, eq_comm]

def Lists (v : Value) (es : Entries) : Prop :=
  ∃ fields, v = .mapping fields ∧ (Value.field? fields "entries" = none ∧ es = [] ∨
    ∃ items, Value.field? fields "entries" = some (.list items) ∧ List.Forall₂ IsEntry items es)

theorem isEntry_of_checkEntry (h : checkEntry v = .ok e) : IsEntry v e := by
  obtain ⟨fields, hv, hchain, hexecutor, -⟩ := checkEntry_eq_ok.mp h
  exact ⟨fields, hv, hchain, hexecutor⟩

theorem lists_of_checkDocument (h : checkDocument v = .ok es) : Lists v es ∧ (es.map (·.1)).Nodup := by
  obtain ⟨fields, rfl, -, ⟨hnone, rfl⟩ | ⟨v, hsome, hlist⟩⟩ := checkDocument_eq_ok.mp h
  · exact ⟨⟨fields, rfl, .inl ⟨hnone, rfl⟩⟩, List.nodup_nil⟩
  · obtain ⟨items, rfl, hitems, hnodup⟩ := checkList_eq_ok.mp hlist
    exact ⟨⟨fields, rfl, .inr ⟨items, hsome, hitems.imp fun _ _ => isEntry_of_checkEntry⟩⟩, hnodup⟩

def setAll (r : Registry) (es : Entries) : Except SetError Registry :=
  es.foldlM (fun r e => (r.set (.int e.1) (.text e.2.checksum)).map (·.2)) r

theorem set_checksum (r : Registry) (n : ℕ) (a : Address) :
    r.set (.int n) (.text a.checksum) = .ok (a, r.insert n a) :=
  set_eq_ok.mpr ⟨n, rfl, ⟨a.checksum, rfl, Address.reads_checksum a⟩, rfl⟩

theorem setAll_eq_ofEntries (es : Entries) : setAll empty es = .ok (ofEntries es) := by
  have hfold (r : Registry) : setAll r es = .ok (es.foldl (fun r e => r.insert e.1 e.2) r) := by
    induction es generalizing r with
    | nil => rfl
    | cons e es ih =>
      rw [setAll, List.foldlM_cons, set_checksum]
      exact ih _
  exact hfold empty

theorem checkEntry_entryValue (e : ℕ × Address) : checkEntry (entryValue e) = .ok e := by
  have hchain : checkChain (.int e.1) = .ok e.1 := by simp [checkChain, natural]
  refine checkEntry_eq_ok.mpr ⟨_, rfl, ⟨.int e.1, rfl, hchain⟩,
    ⟨e.2.checksum, rfl, Address.reads_checksum e.2⟩, ?_⟩
  simp [extras, chainField, Value.field?, Value.isKey, Value.display]

theorem ofDocument_toDocument (r : Registry) : ofDocument r.toDocument = .ok r := by
  refine ofDocument_eq_ok.mpr ⟨r.entries, checkDocument_eq_ok.mpr ⟨_, rfl, ?_, .inr ⟨_, rfl, ?_⟩⟩, ?_⟩
  · simp [extras, Value.isKey]
  · refine checkList_eq_ok.mpr ⟨_, rfl, ?_, r.increasing.nodup⟩
    rw [List.forall₂_map_left_iff, List.forall₂_same]
    exact fun e _ => checkEntry_entryValue e
  · rw [ofEntries_entries]

theorem load_dump (h : ∀ e ∈ r.entries, e.1 < 10 ^ Integer.maxDigits) :
    ∃ text, r.dump = .ok text ∧ ∀ path, load path (some (Bytes.ofString text)) = .ok r := by
  have hall : (r.entries.all fun e => e.1 < Nat.pow 10 Integer.maxDigits) = true := by
    have hpow (k : ℕ) : Nat.pow 10 k = 10 ^ k := rfl
    rw [hpow, List.all_eq_true]
    exact fun e he => decide_eq_true (h e he)
  have hblank : Json.IsBlank (Bytes.ofString "\n") := by
    rw [show Bytes.ofString "\n" = [10] from Bytes.ofString_eq _]
    simp [Json.IsBlank, Json.isSpace]
  refine ⟨_, if_pos hall, fun path => ?_⟩
  rw [load, Bytes.fromUTF8?_ofString]
  simp only [Json.indented, Json.parse_print Json.isLegible_indented (portable_toDocument h) (by decide) hblank,
    ofDocument_toDocument]

/-- A registry is written and read without loss. Its text is that of the set of its entries; it is read as the same
registry, which has the same text. What is read holds the entries of the document, each of which can be set, and
written as a document it is read again. -/
theorem document_roundTrip :
    (∀ r : Registry, (∀ e ∈ r.entries, e.1 < 10 ^ Integer.maxDigits) → ∃ text, r.dump = .ok text ∧
      ∀ path, ∃ r', load path (some (Bytes.ofString text)) = .ok r' ∧ r'.entries = r.entries ∧ r'.dump = .ok text) ∧
    (∀ r r' : Registry, (∀ e, e ∈ r.entries ↔ e ∈ r'.entries) → r.dump = r'.dump) ∧
    ∀ v r, ofDocument v = .ok r → ofDocument r.toDocument = .ok r ∧
      ∃ es, Lists v es ∧ (es.map (·.1)).Nodup ∧ List.Perm r.entries es ∧ setAll empty es = .ok r := by
  refine ⟨?_, ?_, ?_⟩
  · intro r h
    obtain ⟨text, hdump, hload⟩ := load_dump h
    exact ⟨text, hdump, fun path => ⟨r, hload path, rfl, hdump⟩⟩
  · intro r r' h
    rw [ext_entries h]
  · intro v r h
    obtain ⟨es, hcheck, rfl⟩ := ofDocument_eq_ok.mp h
    obtain ⟨hlists, hnodup⟩ := lists_of_checkDocument hcheck
    refine ⟨ofDocument_toDocument _, es, hlists, hnodup, ?_, setAll_eq_ofEntries es⟩
    rw [List.perm_ext_iff_of_nodup (ofEntries es).increasing.nodup.of_map hnodup.of_map]
    exact fun _ => mem_ofEntries hnodup

end Check

def firstExecutor : Address := .ofNat 0x32400084c286cf3e17e7b677ea9583e60a000324

def secondExecutor : Address := .ofNat 0x5aaeb6053f3e94c9b9a09f33669435e7ef1beaed

theorem document_roundTrip_twoEntries :
    letI := Platform.standard
    let r := (empty.insert 324 firstExecutor).insert 7 secondExecutor
    let r' := (empty.insert 7 secondExecutor).insert 324 firstExecutor
    (∃ text, r.dump = .ok text ∧ r'.dump = .ok text ∧ ∀ path, ∃ r'', load path (some (Bytes.ofString text)) = .ok r'' ∧
      r''.entries = [(7, secondExecutor), (324, firstExecutor)]) ∧
    ofDocument r.toDocument = .ok r ∧ ∃ es, Lists r.toDocument es ∧ setAll empty es = .ok r := by
  let := Platform.standard
  intro r r'
  obtain ⟨hdump, hsame, hdocument⟩ := document_roundTrip
  have hsmall (n : ℕ) (hn : n < 10 ^ 3) : n < 10 ^ Integer.maxDigits :=
    hn.trans_le (Nat.pow_le_pow_right (by decide) (by decide))
  have hentries : ∀ e ∈ r.entries, e.1 < 10 ^ Integer.maxDigits :=
    List.forall_mem_cons.mpr ⟨hsmall 7 (by decide), List.forall_mem_singleton.mpr (hsmall 324 (by decide))⟩
  obtain ⟨text, htext, hload⟩ := hdump r hentries
  refine ⟨⟨text, htext, (hsame r r' fun _ => Iff.rfl) ▸ htext, fun path => ?_⟩, ?_⟩
  · obtain ⟨r'', hr'', hread, -⟩ := hload path
    exact ⟨r'', hr'', hread⟩
  · obtain ⟨hagain, es, hlists, -, -, hset⟩ := hdocument _ _ (ofDocument_toDocument r)
    exact ⟨hagain, es, hlists, hset⟩

end Settlement.Registry
