import Mathlib
import Settlement.Bridge.Deployment
import Settlement.Proofs.Address
import Settlement.Proofs.Bridge.Encoding
import Settlement.Proofs.Bridge.Preparation

/-!
What the predicted addresses stand for. Whoever finds two deployments of a bridge that predict the same address for the
token factory has found a collision, in the hash of addresses and calls or in the versioned hash of bytecodes.
-/

namespace Settlement

theorem Artifacts.ext_code {Code : Type} {a b : Artifacts Code} (h : ∀ c, a.code c = b.code c) : a = b := by
  cases a
  cases b
  simp only [Artifacts.mk.injEq]
  exact ⟨h .l2Bridge, h .l2StandardToken, h .transparentProxy, h .beaconProxy, h .upgradeableBeacon⟩

theorem Abi.tail_inj {bs bs' : Bytes} (hlen : bs.length = bs'.length) (h : tail bs = tail bs') : bs = bs' := by
  rw [tail, tail, Bytes.padRight, Bytes.padRight, hlen] at h
  exact List.append_cancel_right (List.append_cancel_left h)

namespace Bridge

open Bytecode

structure Deployment where
  sender : Address
  code : Bytes
  input : Bytes

namespace Deployment

def preimage (d : Deployment) : Bytes :=
  create2Preimage d.sender zeroSalt (versioned d.code) d.input

def address (d : Deployment) : Address := .ofHash (keccak256 d.preimage)

theorem bytes_address (d : Deployment) : d.address.bytes = (keccak256 d.preimage).drop 12 :=
  Address.bytes_ofHash (length_keccak256 _)

theorem parts_of_preimage {d d' : Deployment} (h : d.preimage = d'.preimage) :
    d.sender = d'.sender ∧ versioned d.code = versioned d'.code ∧ keccak256 d.input = keccak256 d'.input := by
  rw [preimage, preimage, create2Preimage, create2Preimage] at h
  obtain ⟨h, hinput⟩ := List.append_inj' h (by simp [length_keccak256])
  obtain ⟨h, hcode⟩ := List.append_inj' h (by simp)
  have hsender : d.sender.wide = d'.sender.wide := List.append_cancel_left (List.append_cancel_right h)
  exact ⟨Address.wide_inj hsender, hcode, hinput⟩

end Deployment

structure Blueprint where
  l1Bridge : Address
  governor : Address
  codes : Artifacts Bytes

namespace Blueprint

variable (x : Blueprint)

def implementation : Deployment := ⟨applyAlias x.l1Bridge, x.codes.l2Bridge, []⟩

def initData : Bytes :=
  Abi.selector l2InitializeSignature ++ (x.l1Bridge.wide ++ versioned x.codes.beaconProxy ++ x.governor.wide)

def proxyInput : Bytes :=
  x.implementation.address.wide ++ x.governor.wide ++ Abi.word 96 ++ Abi.tail x.initData

def proxy : Deployment := ⟨applyAlias x.l1Bridge, x.codes.transparentProxy, x.proxyInput⟩

def token : Deployment := ⟨x.proxy.address, x.codes.l2StandardToken, []⟩

def factory : Deployment := ⟨x.proxy.address, x.codes.upgradeableBeacon, x.token.address.wide⟩

def deployments : List Deployment := [x.implementation, x.proxy, x.token, x.factory]

def addresses : Addresses :=
  ⟨x.implementation.address, x.proxy.address, x.token.address, x.factory.address, x.initData⟩

/-- Two different byte strings that are hashed in the same place, with the same hash as far as it is used there. -/
inductive Collides (x y : Blueprint) : Prop
  | address (d d' : Deployment) (hmem : (d, d') ∈ x.deployments.zip y.deployments) (hne : d.preimage ≠ d'.preimage)
      (heq : (keccak256 d.preimage).drop 12 = (keccak256 d'.preimage).drop 12)
  | input (d d' : Deployment) (hmem : (d, d') ∈ x.deployments.zip y.deployments) (hne : d.input ≠ d'.input)
      (heq : keccak256 d.input = keccak256 d'.input)
  | code (c : Contract) (hne : x.codes.code c ≠ y.codes.code c)
      (heq : versioned (x.codes.code c) = versioned (y.codes.code c))

section Binding

variable {x y : Blueprint}

theorem parts_of_address (hno : ¬x.Collides y) {d d' : Deployment} (hmem : (d, d') ∈ x.deployments.zip y.deployments)
    (h : d.address = d'.address) : d.sender = d'.sender ∧ versioned d.code = versioned d'.code ∧ d.input = d'.input := by
  have hpreimage : d.preimage = d'.preimage := by
    by_contra hne
    refine hno (.address d d' hmem hne ?_)
    rw [← d.bytes_address, ← d'.bytes_address, h]
  obtain ⟨hsender, hcode, hhash⟩ := Deployment.parts_of_preimage hpreimage
  refine ⟨hsender, hcode, ?_⟩
  by_contra hne
  exact hno (.input d d' hmem hne hhash)

theorem initData_inj (h : x.initData = y.initData) :
    x.l1Bridge = y.l1Bridge ∧ versioned x.codes.beaconProxy = versioned y.codes.beaconProxy ∧
      x.governor = y.governor := by
  have hargs := List.append_cancel_left h
  obtain ⟨hargs, hgovernor⟩ := List.append_inj' hargs (by simp)
  obtain ⟨hbridge, hbeacon⟩ := List.append_inj' hargs (by simp)
  exact ⟨Address.wide_inj hbridge, hbeacon, Address.wide_inj hgovernor⟩

theorem proxyInput_inj (h : x.proxyInput = y.proxyInput) :
    x.implementation.address = y.implementation.address ∧ x.initData = y.initData := by
  have hlen : x.initData.length = y.initData.length := by simp [initData]
  obtain ⟨hheads, htail⟩ := List.append_inj' h (by simp [Abi.tail, Abi.word, Bytes.padRight, hlen, Bytes.length_ofNat])
  obtain ⟨himplementation, -⟩ := List.append_inj' (List.append_cancel_right hheads) (by simp)
  exact ⟨Address.wide_inj himplementation, Abi.tail_inj hlen htail⟩

theorem eq_of_factory (hno : ¬x.Collides y) (h : x.factory.address = y.factory.address) : x = y := by
  -- the last deployment leads back to its sender, the proxy, and through its input to the token
  obtain ⟨hproxy, hbeacon, hinput⟩ := parts_of_address hno (by simp [deployments]) h
  have htoken : x.token.address = y.token.address := Address.wide_inj hinput
  obtain ⟨-, hstandard, -⟩ := parts_of_address hno (by simp [deployments]) htoken
  -- the input of the proxy holds all that is left: the implementation, the governor and the first layer's bridge
  have hproxy : x.proxy.address = y.proxy.address := hproxy
  obtain ⟨-, htransparent, hinput⟩ := parts_of_address hno (by simp [deployments]) hproxy
  obtain ⟨himplementation, hinit⟩ := proxyInput_inj hinput
  obtain ⟨-, hbridge, -⟩ := parts_of_address hno (by simp [deployments]) himplementation
  obtain ⟨hl1, hbeaconProxy, hgovernor⟩ := initData_inj hinit
  have hversioned (c : Contract) : versioned (x.codes.code c) = versioned (y.codes.code c) := by
    cases c with
    | l2Bridge => exact hbridge
    | l2StandardToken => exact hstandard
    | transparentProxy => exact htransparent
    | beaconProxy => exact hbeaconProxy
    | upgradeableBeacon => exact hbeacon
  have hcodes : x.codes = y.codes := by
    apply Artifacts.ext_code
    intro c
    by_contra hne
    exact hno (.code c hne (hversioned c))
  cases x
  cases y
  congr

end Binding

section Derivation

variable {x : Blueprint} {l1Bridge governor : Value} {a : Artifacts Source}

structure IsReadFrom (x : Blueprint) (l1Bridge governor : Value) (a : Artifacts Source) : Prop where
  l1Bridge : Address.Denotes l1Bridge x.l1Bridge
  governor : Address.Denotes governor x.governor
  codes : ∀ c, (a.code c).read = .ok (x.codes.code c)

theorem encode_address (b : Address) : Abi.encode [.address b] = .ok b.wide := by
  change Except.ok (b.wide ++ [] ++ []) = _
  rw [List.append_nil, List.append_nil]

theorem encode_proxyInput (x : Blueprint) :
    Abi.encode [.address x.implementation.address, .address x.governor, .bytes x.initData] = .ok x.proxyInput := by
  have hplace : x.implementation.address.wide.length + (x.governor.wide.length + (32 + 0)) = 96 := by simp
  change Except.ok (x.implementation.address.wide ++ (x.governor.wide ++
    (Abi.word (x.implementation.address.wide.length + (x.governor.wide.length + (32 + 0))) ++ [])) ++
      (Abi.tail x.initData ++ [])) = _
  rw [hplace, proxyInput]
  simp only [List.append_nil, List.append_assoc]

theorem l2InitializeCalldata_eq (x : Blueprint) :
    l2InitializeCalldata x.l1Bridge (versioned x.codes.beaconProxy) x.governor = .ok x.initData := by
  have hfits : (versioned x.codes.beaconProxy).length ≤ 32 := (length_versioned _).le
  rw [l2InitializeCalldata, Abi.call, Abi.encode, List.mapM_cons, List.mapM_cons, Abi.part, Abi.part, if_pos hfits,
    length_versioned]
  change Except.ok (_ ++ (x.l1Bridge.wide ++ (versioned x.codes.beaconProxy ++ [] ++ (x.governor.wide ++ [])) ++ [])) = _
  rw [initData]
  simp only [List.append_nil, List.append_assoc]

theorem place_eq {Code : Type} {hash : Code → Except Bytecode.Error Bytes} {code : Code} {bs : Bytes}
    (h : hash code = .ok (versioned bs)) (sender : Address) (input : Bytes) :
    place hash sender code input = .ok (Deployment.address ⟨sender, bs, input⟩) := by
  rw [place, h]
  rfl

theorem derive_eq {Code : Type} {hash : Code → Except Bytecode.Error Bytes} {a : Artifacts Code}
    (h : ∀ c, hash (a.code c) = .ok (versioned (x.codes.code c))) :
    derive hash x.l1Bridge x.governor a = .ok x.addresses := by
  refine Except.bind_eq_ok.mpr ⟨_, place_eq (h .l2Bridge) _ _, ?_⟩
  refine Except.bind_eq_ok.mpr ⟨_, Except.mapError_eq_ok.mpr (h .beaconProxy), ?_⟩
  refine Except.bind_eq_ok.mpr ⟨_, Except.mapError_eq_ok.mpr x.l2InitializeCalldata_eq, ?_⟩
  refine Except.bind_eq_ok.mpr ⟨_, Except.mapError_eq_ok.mpr x.encode_proxyInput, ?_⟩
  refine Except.bind_eq_ok.mpr ⟨_, place_eq (h .transparentProxy) _ _, ?_⟩
  refine Except.bind_eq_ok.mpr ⟨_, place_eq (h .l2StandardToken) _ _, ?_⟩
  refine Except.bind_eq_ok.mpr ⟨_, Except.mapError_eq_ok.mpr (encode_address x.token.address), ?_⟩
  exact Except.bind_eq_ok.mpr ⟨_, place_eq (h .upgradeableBeacon) _ _, rfl⟩

theorem namedAddress_eq_ok {v : Value} {b : Address} : namedAddress v = .ok b ↔ Address.Denotes v b := by
  rw [← Address.ofValue_eq_ok, namedAddress]
  split <;> simp_all

theorem plainAddress_eq_ok {v : Value} {b : Address} : plainAddress v = .ok b ↔ Address.Denotes v b := by
  rw [← Address.ofValue_eq_ok, plainAddress]
  split <;> simp_all

theorem deriveOfValues_congr {v w v' w' : Value} {b g : Address} (hv : Address.Denotes v b) (hw : Address.Denotes w g)
    (hv' : Address.Denotes v' b) (hw' : Address.Denotes w' g) (a : Artifacts Source) :
    deriveOfValues v' w' a = deriveOfValues v w a := by
  rw [deriveOfValues, namedAddress_eq_ok.mpr hv', plainAddress_eq_ok.mpr hw', deriveOfValues, namedAddress_eq_ok.mpr hv,
    plainAddress_eq_ok.mpr hw]

theorem deriveOfValues_eq_ok {r : Addresses} : deriveOfValues l1Bridge governor a = .ok r ↔
    ∃ x : Blueprint, x.IsReadFrom l1Bridge governor a ∧ (∀ c, IsHashable (x.codes.code c)) ∧ r = x.addresses := by
  constructor
  · intro h
    obtain ⟨b, hb, h⟩ := Except.bind_eq_ok.mp h
    obtain ⟨g, hg, h⟩ := Except.bind_eq_ok.mp h
    have hread (c : Contract) : ∃ code, (a.code c).read = .ok code ∧ IsHashable code := by
      obtain ⟨hashed, hhash⟩ := BringUp.hashed_of_derive h c
      obtain ⟨code, hcode, hhashable, -⟩ := hashSource_eq_ok.mp hhash
      exact ⟨code, hcode, hhashable⟩
    choose code hcode hhashable using hread
    let x : Blueprint := ⟨b, g, ⟨code .l2Bridge, code .l2StandardToken, code .transparentProxy, code .beaconProxy,
      code .upgradeableBeacon⟩⟩
    have hcodes (c : Contract) : x.codes.code c = code c := by cases c <;> rfl
    have hx : derive hashSource x.l1Bridge x.governor a = .ok x.addresses := by
      apply derive_eq
      intro c
      rw [hcodes]
      exact hashSource_eq_ok.mpr ⟨code c, hcode c, hhashable c, rfl⟩
    refine ⟨x, ⟨namedAddress_eq_ok.mp hb, plainAddress_eq_ok.mp hg, fun c => ?_⟩, fun c => ?_, ?_⟩
    · rw [hcodes]
      exact hcode c
    · rw [hcodes]
      exact hhashable c
    · exact Except.ok.inj (h.symm.trans hx)
  · rintro ⟨x, hread, hhashable, rfl⟩
    refine Except.bind_eq_ok.mpr ⟨_, namedAddress_eq_ok.mpr hread.l1Bridge, ?_⟩
    refine Except.bind_eq_ok.mpr ⟨_, plainAddress_eq_ok.mpr hread.governor, ?_⟩
    apply derive_eq
    intro c
    exact hashSource_eq_ok.mpr ⟨_, hread.codes c, hhashable c, rfl⟩

theorem IsReadFrom.unique {y : Blueprint} (hx : x.IsReadFrom l1Bridge governor a)
    (hy : y.IsReadFrom l1Bridge governor a) :
    x = y := by
  have haddress {v : Value} {b b' : Address} (hb : Address.Denotes v b) (hb' : Address.Denotes v b') : b = b' :=
    Except.ok.inj ((Address.ofValue_eq_ok.mpr hb).symm.trans (Address.ofValue_eq_ok.mpr hb'))
  have hbridge := haddress hx.l1Bridge hy.l1Bridge
  have hgovernor := haddress hx.governor hy.governor
  have hcodes : x.codes = y.codes := by
    apply Artifacts.ext_code
    intro c
    exact Except.ok.inj ((hx.codes c).symm.trans (hy.codes c))
  cases x
  cases y
  congr

end Derivation

end Blueprint

open Blueprint

/-- The address of the token factory is that of one deployment up to collisions. The form in which addresses are handed
over does not matter, and the implementation hangs on the first layer's bridge and its own bytecode alone. -/
theorem tokenFactory_binds {v w v' w' : Value} {a a' : Artifacts Source} {r r' : Addresses}
    (h : deriveOfValues v w a = .ok r) (h' : deriveOfValues v' w' a' = .ok r') :
    ∃ x y : Blueprint, x.IsReadFrom v w a ∧ y.IsReadFrom v' w' a' ∧ r = x.addresses ∧ r' = y.addresses ∧
      (r.l2TokenFactory = r'.l2TokenFactory → x = y ∨ x.Collides y) ∧
      (∀ v₂ w₂ a₂, Address.Denotes v₂ x.l1Bridge → Address.Denotes w₂ x.governor →
        deriveOfValues v₂ w₂ a₂ = deriveOfValues v w a₂) ∧
      (x.l1Bridge = y.l1Bridge → x.codes.l2Bridge = y.codes.l2Bridge →
        r.l2BridgeImplementation = r'.l2BridgeImplementation) := by
  obtain ⟨x, hx, -, rfl⟩ := deriveOfValues_eq_ok.mp h
  obtain ⟨y, hy, -, rfl⟩ := deriveOfValues_eq_ok.mp h'
  refine ⟨x, y, hx, hy, rfl, rfl, ?_, ?_, ?_⟩
  · intro hfactory
    by_cases hno : x.Collides y
    · exact .inr hno
    · exact .inl (eq_of_factory hno hfactory)
  · intro v₂ w₂ a₂ hv hw
    exact deriveOfValues_congr hx.l1Bridge hx.governor hv hw a₂
  · intro hbridge hcode
    change x.implementation.address = y.implementation.address
    rw [implementation, implementation, hbridge, hcode]

def wordBridge (governor : Address) : Blueprint where
  l1Bridge := .ofNat 1
  governor := governor
  codes := ⟨Bytes.zeros 32, Bytes.zeros 32, Bytes.zeros 32, Bytes.zeros 32, Bytes.zeros 32⟩

def wordSources : Artifacts Source :=
  ⟨.raw (Bytes.zeros 32), .raw (Bytes.zeros 32), .raw (Bytes.zeros 32), .raw (Bytes.zeros 32), .raw (Bytes.zeros 32)⟩

theorem code_wordBridge (governor : Address) (c : Contract) : (wordBridge governor).codes.code c = Bytes.zeros 32 := by
  cases c <;> rfl

theorem deriveOfValues_wordBridge {v w : Value} {governor : Address} (hv : Address.Denotes v (.ofNat 1))
    (hw : Address.Denotes w governor) :
    (wordBridge governor).IsReadFrom v w wordSources ∧
      deriveOfValues v w wordSources = .ok (wordBridge governor).addresses := by
  have hread : (wordBridge governor).IsReadFrom v w wordSources := by
    refine ⟨hv, hw, fun c => ?_⟩
    cases c <;> rfl
  refine ⟨hread, deriveOfValues_eq_ok.mpr ⟨_, hread, fun c => ?_, rfl⟩⟩
  rw [code_wordBridge]
  simp [IsHashable, Bytes.zeros]

theorem tokenFactory_binds_otherGovernor :
    deriveOfValues (.text (Address.ofNat 1).checksum) (.bytes (Address.ofNat 2).bytes) wordSources =
        .ok (wordBridge (.ofNat 2)).addresses ∧
      deriveOfValues (.bytes (Address.ofNat 1).bytes) (.text (Address.ofNat 3).checksum) wordSources =
        .ok (wordBridge (.ofNat 3)).addresses ∧
      ((wordBridge (.ofNat 2)).factory.address = (wordBridge (.ofNat 3)).factory.address →
        (wordBridge (.ofNat 2)).Collides (wordBridge (.ofNat 3))) := by
  obtain ⟨hread, h⟩ := deriveOfValues_wordBridge (Address.denotes_checksum (.ofNat 1)) (Address.denotes_bytes (.ofNat 2))
  obtain ⟨hread', h'⟩ := deriveOfValues_wordBridge (Address.denotes_bytes (.ofNat 1))
    (Address.denotes_checksum (.ofNat 3))
  obtain ⟨x, y, hx, hy, -, -, hbinds, -⟩ := tokenFactory_binds h h'
  obtain rfl := hread.unique hx
  obtain rfl := hread'.unique hy
  refine ⟨h, h', fun hfactory => (hbinds hfactory).resolve_left ?_⟩
  intro heq
  exact absurd (congrArg Blueprint.governor heq) (by decide)

end Bridge

end Settlement
