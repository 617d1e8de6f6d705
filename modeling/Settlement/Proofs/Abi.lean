import Mathlib
import Settlement.Abi
import Settlement.Proofs.Address
import Settlement.Proofs.Except

namespace Settlement

theorem List.prefix_drop_of_append {α : Type} {xs ys data : List α} {place : ℕ} (h : xs ++ ys <+: data.drop place) :
    xs <+: data.drop place ∧ ys <+: data.drop (place + xs.length) := by
  obtain ⟨rest, hrest⟩ := h
  rw [List.append_assoc] at hrest
  refine ⟨⟨ys ++ rest, hrest⟩, rest, ?_⟩
  rw [← List.drop_drop, ← hrest, List.drop_left]

namespace Abi

inductive Kind where
  | address
  | uint256
  | bytes32
  | bytes
  | bytesList
  deriving DecidableEq

def Kind.name : Kind → String
  | .address => "address"
  | .uint256 => "uint256"
  | .bytes32 => "bytes32"
  | .bytes => "bytes"
  | .bytesList => "bytes[]"

inductive Kind.Admits : Kind → Argument → Prop
  | address (a : Address) : Admits .address (.address a)
  | uint256 {n : ℤ} (hlow : 0 ≤ n) (hhigh : n < 2 ^ 256) : Admits .uint256 (.number n)
  | bytes32 {bs : Bytes} (hbs : bs.length = 32) : Admits .bytes32 (.bytes32 bs)
  | bytes (bs : Bytes) : Admits .bytes (.bytes bs)
  | bytesList (items : List Bytes) : Admits .bytesList (.bytesList items)

def Argument.Fits : Argument → Prop
  | .number n => 0 ≤ n ∧ n < 2 ^ 256
  | .bytes32 bs => bs.length ≤ 32
  | .foreign => False
  | _ => True

theorem Kind.Admits.fits {kind : Kind} {a : Argument} (h : kind.Admits a) : a.Fits := by
  cases h with
  | uint256 hlow hhigh => exact ⟨hlow, hhigh⟩
  | bytes32 hbs => exact hbs.le
  | _ => trivial

theorem part_isOk_iff {a : Argument} : (∃ p, part a = .ok p) ↔ a.Fits := by
  cases a with
  | number n =>
    rw [part, Argument.Fits]
    split_ifs with hn
    · exact iff_of_true ⟨_, rfl⟩ hn
    · exact iff_of_false nofun hn
  | bytes32 bs =>
    rw [part, Argument.Fits]
    split_ifs with hbs
    · exact iff_of_true ⟨_, rfl⟩ hbs
    · exact iff_of_false nofun hbs
  | foreign => exact iff_of_false nofun id
  | _ => exact iff_of_true ⟨_, rfl⟩ trivial

variable {args : List Argument}

theorem encode_isOk_iff : (∃ bs, encode args = .ok bs) ↔ ∀ a ∈ args, a.Fits := by
  rw [encode, Except.bind_pure_isOk_iff, Except.mapM_isOk_iff]
  simp only [part_isOk_iff]

theorem call_isOk_iff {signature : String} : (∃ bs, call signature args = .ok bs) ↔ ∀ a ∈ args, a.Fits := by
  rw [call, Except.bind_pure_isOk_iff, encode_isOk_iff]

theorem exists_encode_of_admits {kinds : List Kind} (h : List.Forall₂ Kind.Admits kinds args) :
    ∃ bs, encode args = .ok bs := by
  apply encode_isOk_iff.mpr
  induction h with
  | nil => simp
  | cons hkind _ ih => exact List.forall_mem_cons.mpr ⟨hkind.fits, ih⟩

section Reading

variable (data : Bytes)

def slice? (place size : ℕ) : Option Bytes :=
  let bs := (data.drop place).take size
  if bs.length = size then some bs else none

def word? (place : ℕ) : Option ℕ :=
  (slice? data place 32).map Bytes.toNat

def bytes? (place : ℕ) : Option Bytes := do
  let size ← word? data place
  let bs ← slice? data (place + 32) size
  let filling ← slice? data (place + 32 + size) ((32 - size % 32) % 32)
  if filling.all (· == 0) then some bs else none

def items? (base : ℕ) : ℕ → ℕ → Option (List Bytes)
  | _, 0 => some []
  | place, count + 1 => do
    let offset ← word? data place
    let bs ← bytes? data (base + offset)
    let more ← items? base (place + 32) count
    some (bs :: more)

def bytesList? (place : ℕ) : Option (List Bytes) := do
  let count ← word? data place
  items? data (place + 32) (place + 32) count

def argument? (place : ℕ) : Kind → Option Argument
  | .address => (decodeAddress? (data.drop place)).map .address
  | .uint256 => (word? data place).map fun (n : ℕ) => .number n
  | .bytes32 => (slice? data place 32).map .bytes32
  | .bytes => do
    let offset ← word? data place
    (bytes? data offset).map .bytes
  | .bytesList => do
    let offset ← word? data place
    (bytesList? data offset).map .bytesList

def arguments? : ℕ → List Kind → Option (List Argument)
  | _, [] => some []
  | place, kind :: kinds => do
    let a ← argument? data place kind
    let more ← arguments? (place + 32) kinds
    some (a :: more)

end Reading

def decode? (kinds : List Kind) (data : Bytes) : Option (List Argument) :=
  arguments? data 0 kinds

variable {data : Bytes} {base place : ℕ}

theorem slice?_of_prefix {bs : Bytes} (h : bs <+: data.drop place) : slice? data place bs.length = some bs := by
  rw [slice?, ← List.prefix_iff_eq_take.mp h, if_pos rfl]

theorem length_word (n : ℕ) : (word n).length = 32 :=
  Bytes.length_ofNat 32 n

theorem word?_of_prefix {n : ℕ} (hn : n < 2 ^ 256) (h : word n <+: data.drop place) : word? data place = some n := by
  have hslice := slice?_of_prefix h
  rw [length_word] at hslice
  rw [word?, hslice, Option.map_some, word, Bytes.toNat_ofNat 32 (hn.trans_eq (by norm_num))]

theorem add_length_le_of_prefix {bs : Bytes} (hbs : bs ≠ []) (h : bs <+: data.drop place) :
    place + bs.length ≤ data.length := by
  have hpos := List.length_pos_iff.mpr hbs
  have hle := h.length_le
  rw [List.length_drop] at hle
  omega

theorem word_append_ne_nil (n : ℕ) (bs : Bytes) : word n ++ bs ≠ [] := by
  apply List.ne_nil_of_length_pos
  rw [List.length_append, length_word]
  omega

theorem bytes?_of_prefix {bs : Bytes} (hdata : data.length < 2 ^ 256) (h : tail bs <+: data.drop place) :
    bytes? data place = some bs := by
  have hlen := add_length_le_of_prefix (word_append_ne_nil _ _) h
  rw [tail, Bytes.padRight] at h
  obtain ⟨hsize, h⟩ := List.prefix_drop_of_append h
  rw [length_word] at h
  obtain ⟨hbs, hfilling⟩ := List.prefix_drop_of_append h
  simp only [Bytes.padRight, List.length_append] at hlen
  have hzeros := slice?_of_prefix hfilling
  rw [Bytes.zeros, List.length_replicate] at hzeros
  simp only [bytes?, word?_of_prefix (show bs.length < 2 ^ 256 by omega) hsize, slice?_of_prefix hbs, hzeros,
    Option.bind_eq_bind, Option.bind_some]
  simp

def Part.StandsAt (data : Bytes) (base place : ℕ) : Part → Prop
  | .fixed head => head <+: data.drop place
  | .placed tail => ∃ offset < 2 ^ 256, word offset <+: data.drop place ∧ tail <+: data.drop (base + offset)

def Stand (data : Bytes) (base : ℕ) : ℕ → List Part → Prop
  | _, [] => True
  | place, p :: rest => p.StandsAt data base place ∧ Stand data base (place + 32) rest

theorem foldr_headSize {parts : List Part} (hparts : ∀ p ∈ parts, headSize p = 32) :
    parts.foldr (headSize · + ·) 0 = 32 * parts.length := by
  induction parts with
  | nil => rfl
  | cons p parts ih =>
    obtain ⟨hp, hrest⟩ := List.forall_mem_cons.mp hparts
    rw [List.foldr_cons, hp, ih hrest, List.length_cons]
    omega

theorem length_heads (offset : ℕ) (parts : List Part) :
    (layOut offset parts).1.length = parts.foldr (headSize · + ·) 0 := by
  induction parts generalizing offset with
  | nil => rfl
  | cons p parts ih =>
    cases p with
    | fixed head => simp only [layOut, List.length_append, ih, List.foldr_cons, headSize]
    | placed tail => simp only [layOut, List.length_append, length_word, ih, List.foldr_cons, headSize]

theorem stand_of_layOut {parts : List Part} {offset : ℕ} (hparts : ∀ p ∈ parts, headSize p = 32)
    (hdata : data.length < 2 ^ 256) (hoffset : base + offset ≤ data.length)
    (hheads : (layOut offset parts).1 <+: data.drop place)
    (htails : (layOut offset parts).2 <+: data.drop (base + offset)) : Stand data base place parts := by
  -- by induction on the parts: each head takes one word, and each tail moves the next one on by its length
  induction parts generalizing place offset with
  | nil => trivial
  | cons p parts ih =>
    obtain ⟨hp, hrest⟩ := List.forall_mem_cons.mp hparts
    cases p with
    | fixed head =>
      obtain ⟨hhead, hheads⟩ := List.prefix_drop_of_append hheads
      have hsize : head.length = 32 := hp
      rw [hsize] at hheads
      exact ⟨hhead, ih hrest hoffset hheads htails⟩
    | placed tail =>
      obtain ⟨hhead, hheads⟩ := List.prefix_drop_of_append hheads
      rw [length_word] at hheads
      obtain ⟨htail, htails⟩ := List.prefix_drop_of_append htails
      have hle := htail.length_le
      rw [List.length_drop] at hle
      rw [add_assoc] at htails
      exact ⟨⟨offset, by omega, hhead, htail⟩, ih hrest (by omega) hheads htails⟩

theorem stand_of_join {parts : List Part} (hparts : ∀ p ∈ parts, headSize p = 32) (hdata : data.length < 2 ^ 256)
    (hbase : base ≤ data.length) (h : join parts <+: data.drop base) : Stand data base base parts := by
  have hle := h.length_le
  rw [join] at h hle
  obtain ⟨hheads, htails⟩ := List.prefix_drop_of_append h
  rw [length_heads] at htails
  simp only [List.length_append, List.length_drop, length_heads] at hle
  exact stand_of_layOut hparts hdata (by omega) hheads htails

theorem items?_of_stand {items : List Bytes} (hdata : data.length < 2 ^ 256)
    (h : Stand data base place (items.map fun bs => .placed (tail bs))) :
    items? data base place items.length = some items := by
  induction items generalizing place with
  | nil => rfl
  | cons bs items ih =>
    obtain ⟨⟨offset, hoffset, hhead, htail⟩, hrest⟩ := h
    simp only [List.length_cons, items?, word?_of_prefix hoffset hhead, bytes?_of_prefix hdata htail, ih hrest,
      Option.bind_eq_bind, Option.bind_some]

theorem bytesList?_of_prefix {items : List Bytes} (hdata : data.length < 2 ^ 256)
    (h : word items.length ++ join (items.map fun bs => .placed (tail bs)) <+: data.drop place) :
    bytesList? data place = some items := by
  have hparts : ∀ p ∈ items.map fun bs => Part.placed (tail bs), headSize p = 32 := List.forall_mem_map.mpr fun _ _ => rfl
  have hle := add_length_le_of_prefix (word_append_ne_nil _ _) h
  obtain ⟨hcount, hitems⟩ := List.prefix_drop_of_append h
  rw [length_word] at hitems
  simp only [join, List.length_append, length_word, length_heads, foldr_headSize hparts, List.length_map] at hle
  have hstand := stand_of_join hparts hdata (by omega) hitems
  simp only [bytesList?, word?_of_prefix (show items.length < 2 ^ 256 by omega) hcount, items?_of_stand hdata hstand,
    Option.bind_eq_bind, Option.bind_some]

theorem decodeAddress?_of_prefix {a : Address} {result : Bytes} (h : a.wide <+: result) :
    decodeAddress? result = some a := by
  obtain ⟨rest, rfl⟩ := h
  have hzeros : (Bytes.zeros 12).length = 12 := List.length_replicate ..
  have hwide : a.wide ++ rest = Bytes.zeros 12 ++ (a.bytes ++ rest) := by
    rw [Address.wide, Bytes.padLeft, a.length_eq, List.append_assoc]
  have hlen : 32 ≤ (a.wide ++ rest).length := by
    rw [List.length_append, a.length_wide]
    omega
  have hfront : ((a.wide ++ rest).take 12).all (· == 0) = true := by
    rw [hwide, List.take_left' hzeros]
    rfl
  rw [decodeAddress?, if_pos ⟨hlen, hfront⟩, hwide, List.drop_left' hzeros, List.take_left' a.length_eq]
  exact Address.ofBytes?_eq_some_iff.mpr rfl

theorem headSize_of_part {a : Argument} {p : Part} (h : part a = .ok p) : headSize p = 32 := by
  cases a with
  | address a =>
    obtain rfl := Except.ok.inj h
    exact a.length_wide
  | number n =>
    rw [part] at h
    split at h
    · obtain rfl := Except.ok.inj h
      rw [headSize, length_word]
    · cases h
  | bytes32 bs =>
    rw [part] at h
    split at h
    · rename_i hbs
      obtain rfl := Except.ok.inj h
      rw [headSize, List.length_append, Bytes.zeros, List.length_replicate]
      omega
    · cases h
  | bytes bs =>
    obtain rfl := Except.ok.inj h
    rfl
  | bytesList items =>
    obtain rfl := Except.ok.inj h
    rfl
  | foreign => cases h

theorem argument?_of_part {kind : Kind} {a : Argument} {p : Part} (hkind : kind.Admits a) (hpart : part a = .ok p)
    (hdata : data.length < 2 ^ 256) (h : p.StandsAt data 0 place) : argument? data place kind = some a := by
  cases hkind with
  | address a =>
    obtain rfl := Except.ok.inj hpart
    rw [argument?, decodeAddress?_of_prefix h]
    rfl
  | @uint256 n hlow hhigh =>
    rw [part, if_pos ⟨hlow, hhigh⟩] at hpart
    obtain rfl := Except.ok.inj hpart
    have hword := word?_of_prefix (show n.toNat < 2 ^ 256 by omega) h
    rw [argument?, hword, Option.map_some, Int.toNat_of_nonneg hlow]
  | @bytes32 bs hbs =>
    rw [part, if_pos hbs.le, hbs, Nat.sub_self] at hpart
    obtain rfl := Except.ok.inj hpart
    have hslice := slice?_of_prefix h
    rw [Bytes.zeros, List.replicate_zero, List.append_nil, hbs] at hslice
    rw [argument?, hslice]
    rfl
  | bytes bs =>
    obtain rfl := Except.ok.inj hpart
    obtain ⟨offset, hoffset, hhead, htail⟩ := h
    rw [zero_add] at htail
    simp only [argument?, word?_of_prefix hoffset hhead, bytes?_of_prefix hdata htail, Option.bind_eq_bind,
      Option.bind_some, Option.map_some]
  | bytesList items =>
    obtain rfl := Except.ok.inj hpart
    obtain ⟨offset, hoffset, hhead, htail⟩ := h
    rw [zero_add] at htail
    simp only [argument?, word?_of_prefix hoffset hhead, bytesList?_of_prefix hdata htail, Option.bind_eq_bind,
      Option.bind_some, Option.map_some]

theorem arguments?_of_stand {kinds : List Kind} {args : List Argument} {parts : List Part}
    (hkinds : List.Forall₂ Kind.Admits kinds args) (hparts : List.Forall₂ (fun a p => part a = .ok p) args parts)
    (hdata : data.length < 2 ^ 256) (h : Stand data 0 place parts) : arguments? data place kinds = some args := by
  induction hkinds generalizing place parts with
  | nil => rfl
  | cons hkind _ ih =>
    cases hparts with
    | cons hpart hparts =>
      obtain ⟨hstand, hrest⟩ := h
      simp only [arguments?, argument?_of_part hkind hpart hdata hstand, ih hparts hrest, Option.bind_eq_bind,
        Option.bind_some]

theorem decode?_encode {kinds : List Kind} {args : List Argument} {data : Bytes}
    (hkinds : List.Forall₂ Kind.Admits kinds args) (h : encode args = .ok data) (hdata : data.length < 2 ^ 256) :
    decode? kinds data = some args := by
  obtain ⟨parts, hparts, hjoin⟩ := Except.bind_eq_ok.mp h
  obtain rfl := Except.ok.inj hjoin
  have hsizes := Except.forall_of_mapM (fun _ _ => headSize_of_part) hparts
  exact arguments?_of_stand hkinds (Except.forall₂_of_mapM hparts) hdata
    (stand_of_join hsizes hdata (Nat.zero_le _) (List.prefix_refl _))

end Abi

end Settlement
