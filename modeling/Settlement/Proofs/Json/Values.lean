import Mathlib
import Settlement.Json.Reader
import Settlement.Proofs.Json.Compact

/-!
Values that are printed, on one line or indented, are read back: constants, integers that are not too long, plain text,
and arrays and objects of such values.
-/

namespace Settlement.Json

open Bytes

def IsBlank (bs : Bytes) : Prop :=
  ∀ b ∈ bs, isSpace b = true

theorem skipSpace_blank {bs : Bytes} (h : IsBlank bs) (rest : Bytes) : skipSpace (bs ++ rest) = skipSpace rest :=
  List.dropWhile_append_of_pos h

theorem skipSpace_cons {b : UInt8} (h : isSpace b = false) (bs : Bytes) : skipSpace (b :: bs) = b :: bs :=
  List.dropWhile_cons_of_neg (by simp [h])

theorem Stops.blank {bs rest : Bytes} (h : Stops rest) (hbs : IsBlank bs) : Stops (bs ++ rest) := by
  cases bs with
  | nil => exact h
  | cons c bs =>
    rintro x ⟨⟩
    have hc := hbs c List.mem_cons_self
    simp only [isSpace, Bool.or_eq_true, beq_iff_eq] at hc
    obtain ((rfl | rfl) | rfl) | rfl := hc <;> decide

inductive Portable : ℕ → Value → Prop
  | null {k : ℕ} : Portable k .null
  | bool {k : ℕ} (b : Bool) : Portable k (.bool b)
  | int {k : ℕ} {n : ℤ} (h : digitCount n ≤ Integer.maxDigits) : Portable k (.int n)
  | text {k : ℕ} {s : String} (h : IsPlain s) : Portable k (.text s)
  | list {k : ℕ} {items : List Value} (h : ∀ v ∈ items, Portable k v) : Portable (k + 1) (.list items)
  | object {k : ℕ} {fields : List (String × Value)} (hnames : ∀ e ∈ fields, IsPlain e.1)
    (hnodup : (fields.map (·.1)).Nodup) (h : ∀ e ∈ fields, Portable k e.2) : Portable (k + 1) (.object fields)

structure Style.IsLegible (st : Style) : Prop where
  charset : st.charset = .ascii
  comma : ∃ blank, ofString st.comma = 44 :: blank ∧ IsBlank blank
  colon : ∃ blank, ofString st.colon = 58 :: blank ∧ IsBlank blank

theorem isLegible_indented : (Style.indented .ascii).IsLegible := by
  refine ⟨rfl, ⟨[], ofString_eq _, by simp [IsBlank]⟩, ⟨[32], ofString_eq _, ?_⟩⟩
  simp only [IsBlank, List.mem_singleton, forall_eq]
  rfl

theorem isBlank_lineBreak (st : Style) (depth : ℕ) : IsBlank (ofString (st.lineBreak depth)) := by
  unfold Style.lineBreak
  split
  · rw [show ofString "" = [] from ofString_eq _]
    simp [IsBlank]
  · have hascii {k : ℕ} : ∀ c ∈ (String.ofList (List.replicate k ' ')).toList, c.toNat < 128 := by
      rw [String.toList_ofList]
      intro c hc
      rw [List.eq_of_mem_replicate hc]
      decide
    rw [ofString_append, show ofString "\n" = [10] from ofString_eq _, ofString_of_ascii hascii, String.toList_ofList,
      List.map_replicate]
    intro b hb
    obtain hb | hb := List.mem_append.mp hb
    · rw [List.mem_singleton.mp hb]
      rfl
    · rw [List.eq_of_mem_replicate hb]
      rfl

structure Legible (k : ℕ) (t : String) (v : Value) : Prop where
  head : ∃ b bs, ofString t = b :: bs ∧ isSpace b = false ∧ b ≠ 93 ∧ b ≠ 125
  reads : ∀ {fuel depth rest}, (ofString t).length ≤ fuel → k ≤ depth → Stops rest →
    readValue fuel depth (ofString t ++ rest) = .ok (v, rest)

variable {k : ℕ}

theorem Legible.skip {t : String} {v : Value} (h : Legible k t v) (rest : Bytes) :
    skipSpace (ofString t ++ rest) = ofString t ++ rest := by
  obtain ⟨b, bs, hbytes, hb, -⟩ := h.head
  exact skipSpace_of_head hbytes hb rest

theorem Legible.length_pos {t : String} {v : Value} (h : Legible k t v) : 0 < (ofString t).length := by
  obtain ⟨b, bs, hbytes, -⟩ := h.head
  simp [hbytes]

theorem readValue_blank (fuel depth : ℕ) {blank : Bytes} (h : IsBlank blank) (bs : Bytes) :
    readValue fuel depth (blank ++ bs) = readValue fuel depth bs := by
  cases fuel with
  | zero => rfl
  | succ fuel => rw [readValue, readValue, skipSpace_blank h]

theorem legible_token {t : String} {v : Value} {u : Token}
    (hhead : ∃ b bs, ofString t = b :: bs ∧ isSpace b = false ∧ b ≠ 93 ∧ b ≠ 125)
    (hscan : ∀ rest, Stops rest → scan .relaxed (ofString t ++ rest) = some (u, rest))
    (hread : ∀ fuel depth bs rest, scan .relaxed (skipSpace bs) = some (u, rest) →
      readValue (fuel + 1) depth bs = .ok (v, rest)) :
    Legible k t v := by
  refine ⟨hhead, ?_⟩
  intro fuel depth rest hfuel _ hrest
  obtain ⟨b, bs, hbytes, hb, -⟩ := hhead
  obtain ⟨fuel, rfl⟩ : ∃ k, fuel = k + 1 := ⟨fuel - 1, by simp [hbytes] at hfuel; omega⟩
  apply hread
  rw [skipSpace_of_head hbytes hb, hscan rest hrest]

theorem expect_append (word : String) (rest : Bytes) : expect word (ofString word ++ rest) = some rest := by
  have hprefix : (ofString word).isPrefixOf (ofString word ++ rest) = true :=
    List.isPrefixOf_iff_prefix.mpr (List.prefix_append _ _)
  simp only [expect, hprefix, ↓reduceIte, List.drop_left]

theorem legible_word {word : String} {b : UInt8} {bs : Bytes} {u : Token} {v : Value}
    (hbytes : ofString word = b :: bs) (hb : isSpace b = false ∧ b ≠ 93 ∧ b ≠ 125)
    (hscan : ∀ rest, scan .relaxed (b :: rest) = (expect word (b :: rest)).map (u, ·))
    (hread : ∀ fuel depth bs rest, scan .relaxed (skipSpace bs) = some (u, rest) →
      readValue (fuel + 1) depth bs = .ok (v, rest)) :
    Legible k word v := by
  refine legible_token ⟨b, bs, hbytes, hb⟩ (fun rest _ => ?_) hread
  have hword := expect_append word rest
  rw [hbytes, List.cons_append] at hword ⊢
  rw [hscan, hword]
  rfl

theorem legible_null : Legible k "null" .null := by
  have hbytes : ofString "null" = [110, 117, 108, 108] := ofString_eq _
  refine legible_word hbytes (by decide) (fun _ => rfl) ?_
  intro fuel depth bs rest h
  rw [readValue, h]

theorem legible_bool (b : Bool) : Legible k (if b then "true" else "false") (.bool b) := by
  have hread (fuel depth : ℕ) (bs rest : Bytes) (h : scan .relaxed (skipSpace bs) = some (.bool b, rest)) :
      readValue (fuel + 1) depth bs = .ok (.bool b, rest) := by
    rw [readValue, h]
  have htrue : ofString "true" = [116, 114, 117, 101] := ofString_eq _
  have hfalse : ofString "false" = [102, 97, 108, 115, 101] := ofString_eq _
  cases b with
  | true => exact legible_word htrue (by decide) (fun _ => rfl) hread
  | false => exact legible_word hfalse (by decide) (fun _ => rfl) hread

theorem legible_int {n : ℤ} (h : digitCount n ≤ Integer.maxDigits) : Legible k (toString n) (.int n) := by
  obtain ⟨b, bs, hbytes, hb, h93, h125, -⟩ := head_integer n
  refine legible_token ⟨b, bs, hbytes, hb, h93, h125⟩ (fun rest hrest => scan_integer n hrest) ?_
  intro fuel depth bs rest hscan
  rw [readValue, hscan]
  exact if_neg (not_lt.mpr h)

theorem legible_quote {s : String} (h : IsPlain s) : Legible k (quote .ascii s) (.text s) := by
  obtain ⟨b, bs, hbytes, hb, h93, h125, -⟩ := head_quote h
  refine legible_token ⟨b, bs, hbytes, hb, h93, h125⟩ (fun rest _ => scan_quoted h rest) ?_
  intro fuel depth bs rest hscan
  rw [readValue, hscan]
  simp only [textValue, fromUTF8?_ofString]

section Loop

variable {σ : Type} (loop : ℕ → σ → Bytes → Read Value) (close : UInt8) (finish : σ → Value)

structure Member (t : String) (s s' : σ) : Prop where
  next : ∀ {fuel blank behind rest}, (ofString t).length ≤ fuel → IsBlank blank → Stops behind →
    skipSpace behind = 44 :: rest → loop (fuel + 1) s (blank ++ (ofString t ++ behind)) = loop fuel s' rest
  last : ∀ {fuel blank behind rest}, (ofString t).length ≤ fuel → IsBlank blank → Stops behind →
    skipSpace behind = close :: rest → loop (fuel + 1) s (blank ++ (ofString t ++ behind)) = .ok (finish s', rest)
  pos : 0 < (ofString t).length

inductive Chain : String → List String → σ → σ → Prop
  | last {t : String} {s s' : σ} (h : Member loop close finish t s s') : Chain t [] s s'
  | next {t u : String} {ts : List String} {s s' s'' : σ} (h : Member loop close finish t s s')
    (hs : Chain u ts s' s'') : Chain t (u :: ts) s s''

theorem loop_chain {loop : ℕ → σ → Bytes → Read Value} {close : UInt8} {finish : σ → Value}
    (hclose : close = 93 ∨ close = 125) {t : String} {ts : List String} {s s' : σ} (h : Chain loop close finish t ts s s')
    {sep start stop : Bytes} (hsep : IsBlank sep) (hstart : IsBlank start) (hstop : IsBlank stop) (rest : Bytes) {fuel : ℕ}
    (hfuel : (ofString t ++ ts.flatMap fun t => 44 :: sep ++ ofString t).length < fuel) :
    loop fuel s (start ++ (ofString t ++ ((ts.flatMap fun t => 44 :: sep ++ ofString t) ++ (stop ++ close :: rest)))) =
      .ok (finish s', rest) := by
  -- The loop reads all members, by induction on them. Each takes at least one byte, which pays for one turn.
  induction h generalizing start fuel with
  | last h =>
    obtain ⟨fuel, rfl⟩ : ∃ k, fuel = k + 1 := ⟨fuel - 1, by omega⟩
    have hspace : isSpace close = false := by obtain rfl | rfl := hclose <;> rfl
    refine h.last (by simp at hfuel; omega) hstart ?_ ?_
    · exact (Ends.cons (.inr hclose) rest).stops.blank hstop
    · rw [List.flatMap_nil, List.nil_append, skipSpace_blank hstop, skipSpace_cons hspace]
  | @next t u ts s s' s'' h _ ih =>
    obtain ⟨fuel, rfl⟩ : ∃ k, fuel = k + 1 := ⟨fuel - 1, by omega⟩
    have hpos := h.pos
    simp only [List.flatMap_cons, List.length_append, List.length_cons] at hfuel
    refine (h.next (by omega) hstart ?_ ?_).trans (ih hsep ?_)
    · rw [List.flatMap_cons, List.cons_append, List.cons_append, List.cons_append]
      exact (Ends.cons (.inl rfl) _).stops
    · rw [List.flatMap_cons, List.cons_append, List.cons_append, List.cons_append, skipSpace_cons rfl]
      simp only [List.append_assoc]
    · rw [List.length_append]
      omega

end Loop

section Enclosed

variable {st : Style} (hst : st.IsLegible)

include hst

theorem ofString_enclosed (depth : ℕ) (left right t : String) (ts : List String) :
    ∃ sep start stop, IsBlank sep ∧ IsBlank start ∧ IsBlank stop ∧
      ofString (enclose st depth left right (t :: ts)) = ofString left ++ (start ++ (ofString t ++
        ((ts.flatMap fun t => 44 :: sep ++ ofString t) ++ (stop ++ ofString right)))) := by
  obtain ⟨blank, hcomma, hblank⟩ := hst.comma
  refine ⟨blank ++ ofString (st.lineBreak (depth + 1)), ofString (st.lineBreak (depth + 1)),
    ofString (st.lineBreak depth), ?_, isBlank_lineBreak st _, isBlank_lineBreak st _, ?_⟩
  · exact List.forall_mem_append.mpr ⟨hblank, isBlank_lineBreak st _⟩
  · rw [enclose, if_neg (by simp)]
    simp only [ofString_append, ofString_intercalate, hcomma, List.append_assoc, List.cons_append]

theorem legible_enclose {σ : Type} {loop : ℕ → ℕ → σ → Bytes → Read Value} {left close : UInt8} {finish : σ → Value}
    {leftText rightText t : String} {ts : List String} {s s' : σ} (hclose : close = 93 ∨ close = 125)
    (hchain : ∀ depth, k ≤ depth → Chain (fun fuel => loop fuel depth) close finish t ts s s')
    (hhead : ∃ b bs, ofString t = b :: bs ∧ isSpace b = false ∧ b ≠ 93 ∧ b ≠ 125)
    (hleft : ofString leftText = [left] ∧ isSpace left = false ∧ left ≠ 93 ∧ left ≠ 125)
    (hright : ofString rightText = [close])
    (hopen : ∀ fuel depth rest, nextIs close rest = none →
      readValue (fuel + 1) (depth + 1) (left :: rest) = loop fuel depth s rest)
    (level : ℕ) : Legible (k + 1) (enclose st level leftText rightText (t :: ts)) (finish s') := by
  obtain ⟨sep, start, stop, hsep, hstart, hstop, hbytes⟩ := ofString_enclosed hst level leftText rightText t ts
  obtain ⟨b, bs, htext, hspace, hb⟩ := hhead
  rw [hleft.1, hright, List.singleton_append] at hbytes
  refine ⟨⟨left, _, hbytes, hleft.2⟩, ?_⟩
  intro fuel depth rest hfuel hdepth _
  obtain ⟨depth, rfl⟩ : ∃ d, depth = d + 1 := ⟨depth - 1, by omega⟩
  have hnext (more : Bytes) : nextIs close (start ++ (ofString t ++ more)) = none := by
    have hne : b ≠ close := by
      obtain rfl | rfl := hclose
      · exact hb.1
      · exact hb.2
    rw [nextIs, skipSpace_blank hstart, skipSpace_of_head htext hspace, htext, List.cons_append]
    exact if_neg hne
  rw [hbytes] at hfuel ⊢
  simp only [List.length_append, List.length_cons] at hfuel
  obtain ⟨fuel, rfl⟩ : ∃ k, fuel = k + 1 := ⟨fuel - 1, by omega⟩
  simp only [List.cons_append, List.append_assoc, List.nil_append]
  rw [hopen _ _ _ (hnext _)]
  apply loop_chain hclose (hchain depth (by omega)) hsep hstart hstop
  rw [List.length_append]
  omega

end Enclosed

section Items

variable {depth : ℕ} (hdepth : k ≤ depth)

include hdepth

theorem member_item {t : String} {v : Value} (h : Legible k t v) (acc : List Value) :
    Member (fun fuel => readItems fuel depth) 93 (fun acc => .list acc.reverse) t acc (v :: acc) := by
  constructor
  case next =>
    intro fuel blank behind rest hfuel hblank hbehind hskip
    rw [readItems, readValue_blank _ _ hblank, h.reads hfuel hdepth hbehind]
    simp only [hskip]
  case last =>
    intro fuel blank behind rest hfuel hblank hbehind hskip
    rw [readItems, readValue_blank _ _ hblank, h.reads hfuel hdepth hbehind]
    simp only [hskip]
  case pos => exact h.length_pos

theorem chain_items {write : Value → String} {v : Value} {vs : List Value} (h : ∀ w ∈ v :: vs, Legible k (write w) w)
    (acc : List Value) :
    Chain (fun fuel => readItems fuel depth) 93 (fun acc => .list acc.reverse) (write v) (vs.map write) acc
      ((v :: vs).reverse ++ acc) := by
  have hmember := member_item hdepth (h v List.mem_cons_self) acc
  induction vs generalizing v acc with
  | nil => exact .last hmember
  | cons w vs ih =>
    obtain ⟨-, hws⟩ := List.forall_mem_cons.mp h
    rw [List.reverse_cons, List.append_assoc]
    exact .next hmember (ih hws (v :: acc) (member_item hdepth (hws w List.mem_cons_self) _))

omit hdepth

theorem legible_empty {left close : UInt8} {v : Value} {t : String} (hbytes : ofString t = [left, close])
    (hleft : isSpace left = false ∧ left ≠ 93 ∧ left ≠ 125)
    (hread : ∀ fuel depth rest, readValue (fuel + 1) (depth + 1) (left :: close :: rest) = .ok (v, rest)) :
    Legible (k + 1) t v := by
  refine ⟨⟨left, [close], hbytes, hleft⟩, ?_⟩
  intro fuel depth rest hfuel hdepth _
  rw [hbytes] at hfuel ⊢
  obtain ⟨fuel, rfl⟩ : ∃ k, fuel = k + 1 := ⟨fuel - 1, by simp at hfuel; omega⟩
  obtain ⟨depth, rfl⟩ : ∃ d, depth = d + 1 := ⟨depth - 1, by omega⟩
  exact hread fuel depth rest

theorem legible_list {st : Style} (hst : st.IsLegible) {write : Value → String} {vs : List Value}
    (h : ∀ v ∈ vs, Legible k (write v) v) (level : ℕ) :
    Legible (k + 1) (enclose st level "[" "]" (vs.map write)) (.list vs) := by
  have hleft : ofString "[" = [91] := ofString_eq _
  have hright : ofString "]" = [93] := ofString_eq _
  cases vs with
  | nil =>
    have hbytes : ofString "[]" = [91, 93] := ofString_eq _
    exact legible_empty hbytes (by decide) fun _ _ _ => rfl
  | cons v vs =>
    have hread := legible_enclose hst (.inl rfl) (fun depth hdepth => chain_items hdepth h [])
      (h v List.mem_cons_self).head ⟨hleft, by decide⟩ hright
      (fun fuel depth rest hnext => by
        rw [readValue, skipSpace_cons rfl, show scan .relaxed (91 :: rest) = some (.arrayStart, rest) from rfl]
        simp only [hnext]) level
    rw [List.append_nil] at hread
    rwa [List.reverse_reverse] at hread

end Items

section Fields

variable {st : Style} (hst : st.IsLegible)

include hst

theorem readName_quote {name : String} (h : IsPlain name) {blank : Bytes} (hblank : IsBlank blank) (rest : Bytes) :
    ∃ colon, IsBlank colon ∧
      readName (blank ++ (ofString (quote .ascii name) ++ (ofString st.colon ++ rest))) =
        .ok (.text name, colon ++ rest) := by
  obtain ⟨colon, hbytes, hcolon⟩ := hst.colon
  obtain ⟨b, bs, hquote, hb, -⟩ := head_quote h
  refine ⟨colon, hcolon, ?_⟩
  rw [readName, skipSpace_blank hblank, skipSpace_of_head hquote hb, scan_quoted h, hbytes, List.cons_append]
  simp only [nextIs, skipSpace_cons (show isSpace 58 = false from rfl), ↓reduceIte, textValue, fromUTF8?_ofString]

theorem member_field {depth : ℕ} (hdepth : k ≤ depth) {name t : String} {v : Value} (hname : IsPlain name)
    (h : Legible k t v) (acc : List (Value × Value)) :
    Member (fun fuel => readFields fuel depth) 125 .mapping (quote .ascii name ++ st.colon ++ t) acc
      (setField acc (.text name) v) := by
  have htext (more : Bytes) : ofString (quote .ascii name ++ st.colon ++ t) ++ more =
      ofString (quote .ascii name) ++ (ofString st.colon ++ (ofString t ++ more)) := by
    simp only [ofString_append, List.append_assoc]
  have hlen : (ofString t).length ≤ (ofString (quote .ascii name ++ st.colon ++ t)).length := by
    rw [ofString_append, List.length_append]
    omega
  constructor
  case next =>
    intro fuel blank behind rest hfuel hblank hbehind hskip
    obtain ⟨colon, hcolon, hread⟩ := readName_quote hst hname hblank (ofString t ++ behind)
    rw [htext, readFields, hread]
    simp only [readValue_blank _ _ hcolon, h.reads (hlen.trans hfuel) hdepth hbehind, hskip]
  case last =>
    intro fuel blank behind rest hfuel hblank hbehind hskip
    obtain ⟨colon, hcolon, hread⟩ := readName_quote hst hname hblank (ofString t ++ behind)
    rw [htext, readFields, hread]
    simp only [readValue_blank _ _ hcolon, h.reads (hlen.trans hfuel) hdepth hbehind, hskip]
  case pos => exact h.length_pos.trans_le hlen

omit hst in
theorem setField_fresh {done : List (String × Value)} {name : String} (h : name ∉ done.map (·.1)) (v : Value) :
    setField (done.map fun e => (.text e.1, e.2)) (.text name) v =
      (done ++ [(name, v)]).map fun e => (.text e.1, e.2) := by
  have hnone : (done.map fun e => (Value.text e.1, e.2)).any (·.1.sameText (.text name)) = false := by
    rw [List.any_map, List.any_eq_false]
    intro e he hkey
    exact h (beq_iff_eq.mp hkey ▸ List.mem_map_of_mem he)
  rw [setField, hnone, List.map_append]
  rfl

theorem chain_fields {depth : ℕ} (hdepth : k ≤ depth) {write : Value → String} {e : String × Value}
    {es : List (String × Value)}
    (done : List (String × Value)) (hnames : ∀ x ∈ e :: es, IsPlain x.1) (hnodup : ((done ++ e :: es).map (·.1)).Nodup)
    (h : ∀ x ∈ e :: es, Legible k (write x.2) x.2) :
    Chain (fun fuel => readFields fuel depth) 125 .mapping (quote .ascii e.1 ++ st.colon ++ write e.2)
      (es.map fun x => quote .ascii x.1 ++ st.colon ++ write x.2)
      (done.map fun x => (.text x.1, x.2)) ((done ++ e :: es).map fun x => (.text x.1, x.2)) := by
  have hmember {e : String × Value} {es done : List (String × Value)} (hname : IsPlain e.1)
      (hnodup : ((done ++ e :: es).map (·.1)).Nodup) (h : Legible k (write e.2) e.2) :
      Member (fun fuel => readFields fuel depth) 125 .mapping (quote .ascii e.1 ++ st.colon ++ write e.2)
        (done.map fun x => (.text x.1, x.2)) ((done ++ [e]).map fun x => (.text x.1, x.2)) := by
    rw [List.map_append, List.nodup_append] at hnodup
    rw [← setField_fresh (fun hmem => hnodup.2.2 _ hmem _ (by simp) rfl)]
    exact member_field hst hdepth hname h _
  induction es generalizing e done with
  | nil => exact .last (hmember (hnames e List.mem_cons_self) hnodup (h e List.mem_cons_self))
  | cons u es ih =>
    have hfirst := hmember (hnames e List.mem_cons_self) hnodup (h e List.mem_cons_self)
    rw [List.append_cons] at hnodup ⊢
    exact .next hfirst (ih _ (List.forall_mem_cons.mp hnames).2 hnodup (List.forall_mem_cons.mp h).2)

theorem legible_object {write : Value → String} {fields : List (String × Value)} (hnames : ∀ e ∈ fields, IsPlain e.1)
    (hnodup : (fields.map (·.1)).Nodup) (h : ∀ e ∈ fields, Legible k (write e.2) e.2) (level : ℕ) :
    Legible (k + 1) (enclose st level "\x7b" "\x7d" (fields.map fun e => quote .ascii e.1 ++ st.colon ++ write e.2))
      (.object fields) := by
  have hleft : ofString "\x7b" = [123] := ofString_eq _
  have hright : ofString "\x7d" = [125] := ofString_eq _
  cases fields with
  | nil =>
    have hbytes : ofString ("\x7b" ++ "\x7d") = [123, 125] := ofString_eq _
    exact legible_empty hbytes (by decide) fun _ _ _ => rfl
  | cons e es =>
    obtain ⟨b, bs, hquote, hb, h93, h125, -⟩ := head_quote (hnames e List.mem_cons_self)
    have hhead : ofString (quote .ascii e.1 ++ st.colon ++ write e.2) =
        b :: (bs ++ ofString st.colon ++ ofString (write e.2)) := by
      rw [ofString_append, ofString_append, hquote]
      rfl
    exact legible_enclose hst (.inr rfl) (fun depth hdepth => chain_fields hst hdepth [] hnames hnodup h)
      ⟨b, _, hhead, hb, h93, h125⟩ ⟨hleft, by decide⟩ hright
      (fun fuel depth rest hnext => by
        rw [readValue, skipSpace_cons rfl, show scan .relaxed (123 :: rest) = some (.objectStart, rest) from rfl]
        simp only [hnext, List.map_nil]) level

end Fields

section Print

variable {st : Style}

theorem printItems_eq (depth : ℕ) (vs : List Value) : printItems st depth vs = vs.map (print st depth) := by
  induction vs with
  | nil => rfl
  | cons v vs ih => rw [printItems, ih, List.map_cons]

theorem printFields_object (depth : ℕ) (fields : List (String × Value)) :
    printFields st depth (fields.map fun e => (.text e.1, e.2)) =
      fields.map fun e => quote st.charset e.1 ++ st.colon ++ print st depth e.2 := by
  induction fields with
  | nil => rfl
  | cons e fields ih => rw [List.map_cons, printFields, ih, List.map_cons, quoteKey]

theorem legible_print (hst : st.IsLegible) {v : Value} (h : Portable k v) (level : ℕ) :
    Legible k (print st level v) v := by
  -- what is printed is read back, by induction on the value
  induction h generalizing level with
  | null => exact legible_null
  | bool b => exact legible_bool b
  | int h => exact legible_int h
  | text h =>
    rw [print, hst.charset]
    exact legible_quote h
  | list _ ih =>
    rw [print, printItems_eq]
    exact legible_list hst (fun v hv => ih v hv (level + 1)) level
  | @object _ fields hnames hnodup _ ih =>
    rw [Value.object, print, printFields_object, hst.charset]
    exact legible_object hst hnames hnodup (fun e he => ih e he (level + 1)) level

theorem parse_print [Platform] (hst : st.IsLegible) {v : Value} (h : Portable k v) (hk : k ≤ 16) {t : String}
    (ht : IsBlank (ofString t)) :
    parse (print st 0 v ++ t) = .ok v := by
  have hstops : Stops (ofString t) := by
    rw [← List.append_nil (ofString t)]
    exact Ends.nil.stops.blank ht
  have hskip : skipSpace (ofString t) = [] := by
    rw [← List.append_nil (ofString t), skipSpace_blank ht]
    rfl
  have hlen : (ofString (print st 0 v)).length ≤ 2 * (ofString (print st 0 v) ++ ofString t).length + 2 := by
    rw [List.length_append]
    omega
  rw [parse, ofString_append, parseBytes, (legible_print hst h 0).reads hlen
    (hk.trans Platform.sixteen_le_jsonDepth) hstops]
  simp [bind, Except.bind, pure, Except.pure, hskip]

end Print

end Settlement.Json
