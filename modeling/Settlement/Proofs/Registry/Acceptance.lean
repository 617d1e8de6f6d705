import Mathlib
import Settlement.Proofs.Json.Documents
import Settlement.Proofs.Registry.Document

/-!
Which documents are accepted. Their shape and their executors are held to the rules by which single executors are set;
chain numbers are not, since a document may also give them as truth values, whole fractions and text.
-/

namespace Settlement.Registry

variable {v c x : Value} {n : ℕ} {e : ℕ × Address} {es : Entries} {items : List Value}

/-- The values that count as a chain number in a document. -/
inductive Coerces : Value → ℕ → Prop
  | int (n : ℕ) : Coerces (.int n) n
  | bool (b : Bool) : Coerces (.bool b) b.toNat
  | float {x : Binary64} {n : ℕ} (h : x.toInt? = some (n : ℤ)) (hn : n < 2 ^ 63) : Coerces (.float x) n
  | text {s : String} {n : ℕ} (h : integerOfText? s = some (n : ℤ)) (hs : s.utf8ByteSize ≤ Integer.maxDigits) :
    Coerces (.text s) n

theorem natural_eq_ok {k : ℤ} : natural k = .ok n ↔ k = n := by
  unfold natural
  split
  · rw [Except.ok.injEq]
    omega
  · exact iff_of_false nofun (by omega)

theorem integerOfFraction_eq_ok {y : Binary64} {k : ℤ} :
    integerOfFraction y = .ok k ↔ y.toInt? = some k ∧ k.natAbs < 2 ^ 63 := by
  cases y with
  | nan => exact iff_of_false nofun (by simp [Binary64.toInt?, Binary64.toRatio?])
  | infinity => exact iff_of_false nofun (by simp [Binary64.toInt?, Binary64.toRatio?])
  | finite =>
    simp only [integerOfFraction]
    split
    · rename_i h
      rw [h]
      exact iff_of_false nofun nofun
    · rename_i k' h
      rw [h, Option.some_inj, Nat.pow_eq]
      split
      · rename_i hk
        rw [Except.ok.injEq]
        exact ⟨fun heq => ⟨heq, heq ▸ hk⟩, And.left⟩
      · rename_i hk
        exact iff_of_false nofun fun heq => hk (heq.1 ▸ heq.2)

theorem checkChain_eq_ok : checkChain c = .ok n ↔ Coerces c n := by
  constructor
  · intro h
    unfold checkChain at h
    split at h
    · rw [natural_eq_ok] at h
      rw [h]
      exact .int n
    · rename_i b
      obtain rfl := Except.ok.inj h
      cases b
      · exact .bool false
      · exact .bool true
    · obtain ⟨k, hk, h⟩ := Except.bind_eq_ok.mp h
      rw [natural_eq_ok] at h
      rw [integerOfFraction_eq_ok, h] at hk
      exact .float hk.1 hk.2
    · split at h
      · cases h
      · split at h
        · rename_i hs _ k hk
          rw [natural_eq_ok] at h
          exact .text (h ▸ hk) (not_lt.mp hs)
        · cases h
    · cases h
    · cases h
  · rintro (_ | b | ⟨h, hn⟩ | ⟨h, hs⟩)
    · exact natural_eq_ok.mpr rfl
    · cases b <;> rfl
    · exact Except.bind_eq_ok.mpr ⟨n, integerOfFraction_eq_ok.mpr ⟨h, hn⟩, natural_eq_ok.mpr rfl⟩
    · rw [checkChain, if_neg (not_lt.mpr hs), h]
      exact natural_eq_ok.mpr rfl

def IsEntryOf (v c x : Value) : Prop :=
  ∃ name ∈ ["chainId", "chain_id"],
    v = .object [(name, c), ("executor", x)] ∨ v = .object [("executor", x), (name, c)]

def HasEntries (v : Value) (items : List Value) : Prop :=
  v = .object [("entries", .list items)] ∨ v = .object [] ∧ items = []

/-- The document has just the entries, of different chains, where a rule says what an entry stands for. -/
def Admits (rule : Value → Value → ℕ × Address → Prop) (v : Value) (es : Entries) : Prop :=
  ∃ items, HasEntries v items ∧ List.Forall₂ (fun item e => ∃ c x, IsEntryOf item c x ∧ rule c x e) items es ∧
    (es.map (·.1)).Nodup

def Sets [Platform] (c x : Value) (e : ℕ × Address) : Prop :=
  ∀ r : Registry, r.set c x = .ok (e.2, r.insert e.1 e.2)

def Takes [Platform] (c x : Value) (e : ℕ × Address) : Prop :=
  Coerces c e.1 ∧ ∃ s, x = .text s ∧ Address.Reads s e.2

def HasChain (v c : Value) : Prop :=
  ∃ items, HasEntries v items ∧ ∃ item ∈ items, ∃ x, IsEntryOf item c x

theorem sets_iff [Platform] : Sets c x e ↔ Takes c x e ∧ ∃ k : ℤ, c = .int k := by
  constructor
  · intro h
    obtain ⟨n, rfl, hx, heq⟩ := set_eq_ok.mp (h empty)
    have hn : e.1 = n := by
      have hmem : (e.1, e.2) ∈ (empty.insert n e.2).entries := by
        rw [← heq]
        exact mem_entries_insert.mpr (.inl rfl)
      obtain hmem | ⟨-, hmem⟩ := mem_entries_insert.mp hmem
      · exact congrArg Prod.fst hmem
      · cases hmem
    exact ⟨⟨hn ▸ .int n, hx⟩, n, rfl⟩
  · rintro ⟨⟨hc, hx⟩, k, rfl⟩ r
    cases hc
    exact set_eq_ok.mpr ⟨_, rfl, hx, rfl⟩

section Shape

variable {fields : List (String × Value)} {known : List String} {a b : String}

def listed (fields : List (String × Value)) : Fields := fields.map fun f => (.text f.1, f.2)

theorem extras_eq_nil_iff {entries : Fields} :
    extras known entries = [] ↔ ∀ e ∈ entries, ∃ name ∈ known, e.1 = .text name := by
  have hkey (k : Value) (name : String) : k.isKey name = true ↔ k = .text name := by
    cases k <;> simp [Value.isKey]
  rw [extras, List.map_eq_nil_iff, List.filter_eq_nil_iff]
  simp only [Bool.not_eq_true', Bool.not_eq_false, List.any_eq_true, hkey]

theorem extras_listed : extras known (listed fields) = [] ↔ ∀ f ∈ fields, f.1 ∈ known := by
  rw [extras_eq_nil_iff, listed, List.forall_mem_map]
  simp

theorem mem_names_of_field? {name : String} (h : Value.field? (listed fields) name = some v) :
    name ∈ fields.map (·.1) := by
  obtain ⟨⟨k, u⟩, hfind, rfl⟩ := Option.map_eq_some_iff.mp h
  have hmem := List.mem_of_find?_eq_some hfind
  have hkey := List.find?_some hfind
  obtain ⟨f, hf, heq⟩ := List.mem_map.mp hmem
  cases heq
  rw [← beq_iff_eq.mp hkey]
  exact List.mem_map_of_mem hf

theorem pair_of_names (hnodup : (fields.map (·.1)).Nodup) (hab : a ≠ b) (hall : ∀ f ∈ fields, f.1 ∈ [a, b])
    (ha : a ∈ fields.map (·.1)) (hb : b ∈ fields.map (·.1)) :
    ∃ u w, fields = [(a, u), (b, w)] ∨ fields = [(b, w), (a, u)] := by
  have hperm : (fields.map (·.1)).Perm [a, b] := by
    rw [List.perm_ext_iff_of_nodup hnodup (by simp [hab])]
    intro name
    constructor
    · intro hname
      obtain ⟨f, hf, rfl⟩ := List.mem_map.mp hname
      exact hall f hf
    · intro hname
      obtain rfl | rfl := List.mem_pair.mp hname
      · exact ha
      · exact hb
  have hread {c d : String} (h : fields.map (·.1) = [c, d]) : ∃ u w, fields = [(c, u), (d, w)] := by
    obtain ⟨⟨c, u⟩, others, rfl, rfl, hothers⟩ := List.map_eq_cons_iff.mp h
    obtain ⟨⟨d, w⟩, rest, rfl, rfl, hrest⟩ := List.map_eq_cons_iff.mp hothers
    obtain rfl := List.map_eq_nil_iff.mp hrest
    exact ⟨u, w, rfl⟩
  obtain h | h := List.perm_pair.mp hperm
  · obtain ⟨u, w, h⟩ := hread h
    exact ⟨u, w, .inl h⟩
  · obtain ⟨w, u, h⟩ := hread h
    exact ⟨u, w, .inr h⟩

theorem nil_or_singleton_of_names (hnodup : (fields.map (·.1)).Nodup) (hall : ∀ f ∈ fields, f.1 = a) :
    fields = [] ∨ ∃ u, fields = [(a, u)] := by
  match fields with
  | [] => exact .inl rfl
  | [(c, u)] =>
    obtain rfl : c = a := hall _ List.mem_cons_self
    exact .inr ⟨u, rfl⟩
  | (c, u) :: (d, w) :: rest =>
    have hc : c = a := hall (c, u) (by simp)
    have hd : d = a := hall (d, w) (by simp)
    simp [hc, hd] at hnodup

theorem exists_listed {entries : Fields} (h : Json.Denotable (.mapping entries)) (hextras : extras known entries = []) :
    ∃ fields : List (String × Value), entries = listed fields ∧ (fields.map (·.1)).Nodup ∧
      ∀ f ∈ fields, Json.Denotable f.2 := by
  cases h with
  | text h => cases h
  | mapping hnames hnodup hvalues =>
    obtain ⟨fields, rfl⟩ : ∃ fields : List (String × Value), entries = listed fields := by
      have htext := extras_eq_nil_iff.mp hextras
      clear hextras hnames hnodup hvalues
      induction entries with
      | nil => exact ⟨[], rfl⟩
      | cons e entries ih =>
        obtain ⟨⟨name, -, he⟩, hrest⟩ := List.forall_mem_cons.mp htext
        obtain ⟨fields, rfl⟩ := ih hrest
        exact ⟨(name, e.2) :: fields, by rw [listed, listed, List.map_cons, ← he]⟩
    refine ⟨fields, rfl, List.Nodup.of_map Value.text ?_, fun f hf => hvalues _ (List.mem_map_of_mem hf)⟩
    rw [listed, List.map_map] at hnodup
    rwa [List.map_map]

theorem chainField_name {entries : Fields} (h : chainValue? entries = some c) :
    (chainField entries).1 ∈ ["chainId", "chain_id"] ∧ Value.field? entries (chainField entries).1 = some c := by
  unfold chainValue? at h
  unfold chainField
  cases hfirst : Value.field? entries "chainId" with
  | some u =>
    rw [hfirst, Option.some_or] at h
    exact ⟨by simp, hfirst.trans h⟩
  | none =>
    rw [hfirst, Option.none_or] at h
    simp only [h]
    exact ⟨by simp, trivial⟩

theorem field?_pair (u w : Value) (hab : a ≠ b) : Value.field? (listed [(a, u), (b, w)]) a = some u ∧
    Value.field? (listed [(a, u), (b, w)]) b = some w := by
  simp [listed, Value.field?, Value.isKey, hab]

end Shape

theorem IsEntryOf.exists_mapping (h : IsEntryOf v c x) : ∃ entries, v = .mapping entries := by
  obtain ⟨name, -, rfl | rfl⟩ := h
  · exact ⟨_, rfl⟩
  · exact ⟨_, rfl⟩

theorem chainValue?_of_isEntryOf {entries : Fields} (h : IsEntryOf (.mapping entries) c x) :
    chainValue? entries = some c ∧ Value.field? entries "executor" = some x ∧
      extras [(chainField entries).1, "executor"] entries = [] := by
  obtain ⟨name, hname, h⟩ := h
  rw [List.mem_pair] at hname
  obtain h | h := h <;> cases h <;> obtain rfl | rfl := hname <;>
    simp [chainValue?, chainField, extras, Value.field?, Value.isKey, Value.display]

theorem hasEntries_iff (hv : Json.Denotable v) : HasEntries v items ↔ ∃ entries, v = .mapping entries ∧
    extras ["entries"] entries = [] ∧ (Value.field? entries "entries" = none ∧ items = [] ∨
      Value.field? entries "entries" = some (.list items)) := by
  constructor
  · rintro (rfl | ⟨rfl, rfl⟩)
    · exact ⟨_, rfl, extras_eq_nil_iff.mpr (by simp), .inr rfl⟩
    · exact ⟨_, rfl, rfl, .inl ⟨rfl, rfl⟩⟩
  · rintro ⟨entries, rfl, hextras, h⟩
    obtain ⟨fields, rfl, hnodup, -⟩ := exists_listed hv hextras
    have hall (f : String × Value) (hf : f ∈ fields) : f.1 = "entries" :=
      List.mem_singleton.mp (extras_listed.mp hextras f hf)
    obtain rfl | ⟨u, rfl⟩ := nil_or_singleton_of_names hnodup hall
    · obtain ⟨-, rfl⟩ | h := h
      · exact .inr ⟨rfl, rfl⟩
      · cases h
    · obtain ⟨h, -⟩ | h := h
      · cases h
      · obtain rfl := Option.some.inj h
        exact .inl rfl

theorem hasEntries_denotable (hv : Json.Denotable v) (h : HasEntries v items) : ∀ i ∈ items, Json.Denotable i := by
  obtain rfl | ⟨-, rfl⟩ := h
  · cases hv with
    | text h => cases h
    | mapping _ _ hvalues =>
      have hlist := hvalues (.text "entries", .list items) (List.mem_singleton.mpr rfl)
      cases hlist with
      | text h => cases h
      | list hitems => exact hitems
  · exact List.forall_mem_nil _

theorem isEntryOf_unique {c' x' : Value} (h : IsEntryOf v c x) (h' : IsEntryOf v c' x') : c' = c := by
  obtain ⟨entries, rfl⟩ := h.exists_mapping
  exact Option.some.inj ((chainValue?_of_isEntryOf h').1.symm.trans (chainValue?_of_isEntryOf h).1)

theorem hasEntries_unique {items' : List Value} (h : HasEntries v items) (h' : HasEntries v items') :
    items' = items := by
  obtain rfl | ⟨rfl, rfl⟩ := h
  · obtain h | ⟨h, -⟩ := h'
    · cases h
      rfl
    · cases h
  · obtain h | ⟨-, rfl⟩ := h'
    · cases h
    · rfl

section Check

variable [Platform]

theorem checkEntry_iff (hv : Json.Denotable v) : checkEntry v = .ok e ↔ ∃ c x, IsEntryOf v c x ∧ Takes c x e := by
  rw [checkEntry_eq_ok]
  constructor
  · rintro ⟨entries, rfl, ⟨c, hc, hchain⟩, ⟨s, hs, hspells⟩, hextras⟩
    obtain ⟨fields, rfl, hnodup, -⟩ := exists_listed hv hextras
    obtain ⟨hname, hfield⟩ := chainField_name hc
    -- the names are this one and that of the executor, so a number under the other name is one too many
    generalize (chainField (listed fields)).1 = name at hname hfield hextras
    have hne : name ≠ "executor" := by
      rintro rfl
      simp at hname
    refine ⟨c, .text s, ⟨name, hname, ?_⟩, checkChain_eq_ok.mp hchain, s, rfl, hspells⟩
    obtain ⟨u, w, rfl | rfl⟩ := pair_of_names hnodup hne (extras_listed.mp hextras) (mem_names_of_field? hfield)
      (mem_names_of_field? hs)
    · obtain ⟨hu, hw⟩ := field?_pair u w hne
      obtain rfl := Option.some.inj (hfield.symm.trans hu)
      obtain rfl := Option.some.inj (hs.symm.trans hw)
      exact .inl rfl
    · obtain ⟨hw, hu⟩ := field?_pair w u hne.symm
      obtain rfl := Option.some.inj (hfield.symm.trans hu)
      obtain rfl := Option.some.inj (hs.symm.trans hw)
      exact .inr rfl
  · rintro ⟨c, x, hentry, hchain, s, rfl, hspells⟩
    obtain ⟨entries, rfl⟩ := hentry.exists_mapping
    obtain ⟨hc, hx, hextras⟩ := chainValue?_of_isEntryOf hentry
    exact ⟨entries, rfl, ⟨c, hc, checkChain_eq_ok.mpr hchain⟩, ⟨s, hx, hspells⟩, hextras⟩

theorem checkItems_iff (h : ∀ i ∈ items, Json.Denotable i) : List.Forall₂ (fun v e => checkEntry v = .ok e) items es ↔
    List.Forall₂ (fun v e => ∃ c x, IsEntryOf v c x ∧ Takes c x e) items es := by
  constructor
  · intro hitems
    exact ((List.forall₂_and_left items es).mpr ⟨h, hitems⟩).imp fun _ _ ⟨hv, hentry⟩ => (checkEntry_iff hv).mp hentry
  · intro hitems
    exact ((List.forall₂_and_left items es).mpr ⟨h, hitems⟩).imp fun _ _ ⟨hv, hentry⟩ => (checkEntry_iff hv).mpr hentry

theorem checkDocument_iff (hv : Json.Denotable v) : checkDocument v = .ok es ↔ Admits Takes v es := by
  rw [checkDocument_eq_ok]
  constructor
  · rintro ⟨entries, rfl, hextras, ⟨hnone, rfl⟩ | ⟨u, hsome, hlist⟩⟩
    · exact ⟨[], (hasEntries_iff hv).mpr ⟨entries, rfl, hextras, .inl ⟨hnone, rfl⟩⟩, .nil, List.nodup_nil⟩
    · obtain ⟨items, rfl, hitems, hnodup⟩ := checkList_eq_ok.mp hlist
      have hentries : HasEntries (.mapping entries) items := (hasEntries_iff hv).mpr ⟨entries, rfl, hextras, .inr hsome⟩
      exact ⟨items, hentries, (checkItems_iff (hasEntries_denotable hv hentries)).mp hitems, hnodup⟩
  · rintro ⟨items, hentries, hitems, hnodup⟩
    have hchecked := (checkItems_iff (hasEntries_denotable hv hentries)).mpr hitems
    obtain ⟨entries, rfl, hextras, ⟨hnone, rfl⟩ | hsome⟩ := (hasEntries_iff hv).mp hentries
    · cases hchecked
      exact ⟨entries, rfl, hextras, .inl ⟨hnone, rfl⟩⟩
    · exact ⟨entries, rfl, hextras, .inr ⟨_, hsome, checkList_eq_ok.mpr ⟨items, rfl, hchecked, hnodup⟩⟩⟩

theorem sets_entry_iff : (∃ c x, IsEntryOf v c x ∧ Sets c x e) ↔
    (∀ c x, IsEntryOf v c x → ∃ k : ℤ, c = .int k) ∧ ∃ c x, IsEntryOf v c x ∧ Takes c x e := by
  constructor
  · rintro ⟨c, x, hentry, hsets⟩
    obtain ⟨htakes, hint⟩ := sets_iff.mp hsets
    refine ⟨fun c' x' hentry' => ?_, c, x, hentry, htakes⟩
    rwa [isEntryOf_unique hentry hentry']
  · rintro ⟨hint, c, x, hentry, htakes⟩
    exact ⟨c, x, hentry, sets_iff.mpr ⟨htakes, hint c x hentry⟩⟩

theorem admits_sets_iff : Admits Sets v es ↔ Admits Takes v es ∧ ∀ c, HasChain v c → ∃ k : ℤ, c = .int k := by
  constructor
  · rintro ⟨items, hentries, hitems, hnodup⟩
    obtain ⟨hint, hitems⟩ := (List.forall₂_and_left items es).mp (hitems.imp fun _ _ => sets_entry_iff.mp)
    refine ⟨⟨items, hentries, hitems, hnodup⟩, ?_⟩
    rintro c ⟨items', hentries', item, hitem, x, hentry⟩
    obtain rfl := hasEntries_unique hentries hentries'
    exact hint item hitem c x hentry
  · rintro ⟨⟨items, hentries, hitems, hnodup⟩, hint⟩
    have hints (item : Value) (hitem : item ∈ items) (c x : Value) (hentry : IsEntryOf item c x) : ∃ k : ℤ, c = .int k :=
      hint c ⟨items, hentries, item, hitem, x, hentry⟩
    have hboth := (List.forall₂_and_left items es).mpr ⟨hints, hitems⟩
    exact ⟨items, hentries, hboth.imp fun _ _ => sets_entry_iff.mpr, hnodup⟩

/-- A document is accepted if its entries have the required shape and are of different chains, each number as it is
coerced. Single executors can be set for the same entries just if all numbers stand in it as integers. -/
theorem ofDocument_admits (hv : Json.Denotable v) :
    (∀ r, ofDocument v = .ok r ↔ ∃ es, Admits Takes v es ∧ r = ofEntries es) ∧
    ((∃ es, Admits Sets v es) ↔ (∃ r, ofDocument v = .ok r) ∧ ∀ c, HasChain v c → ∃ k : ℤ, c = .int k) := by
  have haccepts (r : Registry) : ofDocument v = .ok r ↔ ∃ es, Admits Takes v es ∧ r = ofEntries es := by
    rw [ofDocument_eq_ok]
    exact exists_congr fun es => and_congr_left fun _ => checkDocument_iff hv
  refine ⟨haccepts, ?_, ?_⟩
  · rintro ⟨es, hadmits⟩
    obtain ⟨htakes, hint⟩ := admits_sets_iff.mp hadmits
    exact ⟨⟨_, (haccepts _).mpr ⟨es, htakes, rfl⟩⟩, hint⟩
  · rintro ⟨⟨r, hr⟩, hint⟩
    obtain ⟨es, htakes, -⟩ := (haccepts r).mp hr
    exact ⟨es, admits_sets_iff.mpr ⟨htakes, hint⟩⟩

end Check

def lone (c : Value) (a : Address) : Value :=
  .object [("entries", .list [.object [("chainId", c), ("executor", .text a.checksum)]])]

theorem denotable_lone (hc : Json.Denotable c) (a : Address) : Json.Denotable (lone c a) := by
  have hentry : Json.Denotable (.object [("chainId", c), ("executor", .text a.checksum)]) := by
    refine .mapping ?_ (by simp) ?_
    · exact List.forall_mem_cons.mpr ⟨.text _, List.forall_mem_singleton.mpr (.text _)⟩
    · exact List.forall_mem_cons.mpr ⟨hc, List.forall_mem_singleton.mpr (.text (.text _))⟩
  refine .mapping (List.forall_mem_singleton.mpr (.text _)) (List.nodup_singleton _) ?_
  exact List.forall_mem_singleton.mpr (.list (List.forall_mem_singleton.mpr hentry))

theorem hasChain_lone (c : Value) (a : Address) : HasChain (lone c a) c :=
  ⟨_, .inl rfl, _, List.mem_singleton.mpr rfl, _, "chainId", by simp, .inl rfl⟩

theorem admits_lone [Platform] (h : Coerces c n) (a : Address) : Admits Takes (lone c a) [(n, a)] := by
  refine ⟨_, .inl rfl, .cons ⟨c, _, ⟨"chainId", by simp, .inl rfl⟩, h, a.checksum, rfl, a.reads_checksum⟩ .nil, ?_⟩
  exact List.nodup_singleton _

theorem ofDocument_admits_truthValue :
    letI := Platform.standard
    Json.Denotable (lone (.bool true) .zero) ∧ ofDocument (lone (.bool true) .zero) = .ok (empty.insert 1 .zero) ∧
    ¬∃ es, Admits Sets (lone (.bool true) .zero) es := by
  let := Platform.standard
  have hv := denotable_lone (.bool true) .zero
  obtain ⟨haccepts, hsets⟩ := ofDocument_admits hv
  refine ⟨hv, (haccepts _).mpr ⟨_, admits_lone (.bool true) .zero, rfl⟩, fun h => ?_⟩
  obtain ⟨k, hk⟩ := (hsets.mp h).2 _ (hasChain_lone _ _)
  cases hk

theorem not_accepted_as_set :
    letI := Platform.standard
    ¬∀ v, Json.Denotable v → ((∃ r, ofDocument v = .ok r) ↔ ∃ es, Admits Sets v es) := by
  let := Platform.standard
  intro h
  have hv := denotable_lone (.bool true) .zero
  have hcheck := (checkDocument_iff hv).mpr (admits_lone (.bool true) .zero)
  obtain ⟨es, hes⟩ := (h _ hv).mp ⟨_, ofDocument_eq_ok.mpr ⟨_, hcheck, rfl⟩⟩
  obtain ⟨k, hk⟩ := (admits_sets_iff.mp hes).2 _ (hasChain_lone _ _)
  cases hk

end Settlement.Registry
