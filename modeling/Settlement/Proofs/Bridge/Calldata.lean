import Mathlib
import Settlement.Proofs.Abi
import Settlement.Proofs.Bridge.Binding

namespace Settlement

theorem Abi.selector_eq {signature : String} (h : ' ' ∉ signature.toList) :
    selector signature = (keccak256 (Bytes.ofString signature)).take 4 := by
  have hkept : signature.toList.filter (· != ' ') = signature.toList := by
    apply List.filter_eq_self.mpr
    rintro c hc
    rw [bne_iff_ne]
    rintro rfl
    exact h hc
  rw [selector, hkept, String.ofList_toList]

namespace Bridge

inductive Invocation where
  | request (gasLimit pubdataPrice : ℤ) (factoryDeps : List Bytes) (refund : Value)
  | l1Initialize (factoryDeps : List Bytes) (tokenFactory governor : Value)
  | l2Initialize (l1Bridge : Value) (beaconProxyHash : Bytes) (governor : Value)

namespace Invocation

def calldata : Invocation → Except Error Bytes
  | .request gasLimit pubdataPrice deps refund =>
    requestCalldataOfValues gasLimit pubdataPrice (deps.map .raw) refund
  | .l1Initialize deps tokenFactory governor => l1InitializeCalldataOfValues (deps.map .raw) tokenFactory governor
  | .l2Initialize l1Bridge beaconProxyHash governor => l2InitializeCalldataOfValues l1Bridge beaconProxyHash governor

def name : Invocation → String
  | .request .. => "requestL2Transaction"
  | .l1Initialize .. => "initialize"
  | .l2Initialize .. => "initialize"

def kinds : Invocation → List Abi.Kind
  | .request .. => [.address, .uint256, .bytes, .uint256, .uint256, .bytesList, .address]
  | .l1Initialize .. => [.bytesList, .address, .address]
  | .l2Initialize .. => [.address, .bytes32, .address]

def signature (x : Invocation) : String :=
  x.name ++ "(" ++ String.intercalate "," (x.kinds.map Abi.Kind.name) ++ ")"

/-- The arguments that the call is to carry, if its numbers fit into words and its values are addresses. A request is
an empty call of the zero address without a value. -/
inductive Carries : Invocation → List Abi.Argument → Prop
  | request {gasLimit pubdataPrice : ℤ} {refund : Value} {a : Address} (deps : List Bytes)
    (hlimit : 0 ≤ gasLimit ∧ gasLimit < 2 ^ 256) (hprice : 0 ≤ pubdataPrice ∧ pubdataPrice < 2 ^ 256)
    (ha : Address.Denotes refund a) : Carries (.request gasLimit pubdataPrice deps refund)
      [.address .zero, .number 0, .bytes [], .number gasLimit, .number pubdataPrice, .bytesList deps, .address a]
  | l1Initialize {tokenFactory governor : Value} {a b : Address} (deps : List Bytes)
    (ha : Address.Denotes tokenFactory a) (hb : Address.Denotes governor b) :
    Carries (.l1Initialize deps tokenFactory governor) [.bytesList deps, .address a, .address b]
  | l2Initialize {l1Bridge governor : Value} {beaconProxyHash : Bytes} {a b : Address}
    (ha : Address.Denotes l1Bridge a) (hhash : beaconProxyHash.length = 32) (hb : Address.Denotes governor b) :
    Carries (.l2Initialize l1Bridge beaconProxyHash governor) [.address a, .bytes32 beaconProxyHash, .address b]

variable {x y : Invocation} {args args' : List Abi.Argument}

theorem Carries.admits (h : x.Carries args) : List.Forall₂ Abi.Kind.Admits x.kinds args := by
  cases h with
  | request deps hlimit hprice =>
    exact .cons (.address _) (.cons (.uint256 le_rfl (by norm_num)) (.cons (.bytes _) (.cons (.uint256 hlimit.1 hlimit.2)
      (.cons (.uint256 hprice.1 hprice.2) (.cons (.bytesList _) (.cons (.address _) .nil))))))
  | l1Initialize => exact .cons (.bytesList _) (.cons (.address _) (.cons (.address _) .nil))
  | l2Initialize ha hhash hb => exact .cons (.address _) (.cons (.bytes32 hhash) (.cons (.address _) .nil))

theorem selector_signature (x : Invocation) :
    Abi.selector x.signature = (keccak256 (Bytes.ofString x.signature)).take 4 := by
  apply Abi.selector_eq
  cases x with
  | request => exact (by decide : ' ' ∉ requestSignature.toList)
  | l1Initialize => exact (by decide : ' ' ∉ l1InitializeSignature.toList)
  | l2Initialize => exact (by decide : ' ' ∉ l2InitializeSignature.toList)

theorem bytecodeArgument_raw (codes : List Bytes) : bytecodeArgument (codes.map .raw) = .bytesList codes := by
  have hcodes : (codes.map Bytecode.Source.raw).mapM Bytecode.Source.raw? = some codes := by
    induction codes with
    | nil => rfl
    | cons code codes ih =>
      rw [List.map_cons, List.mapM_cons, ih]
      rfl
  rw [bytecodeArgument, hcodes]

theorem Carries.calldata_eq (h : x.Carries args) : x.calldata = (Abi.call x.signature args).mapError .encoding := by
  cases h with
  | request deps hlimit hprice ha =>
    rw [calldata, requestCalldataOfValues, Blueprint.plainAddress_eq_ok.mpr ha, bytecodeArgument_raw]
    rfl
  | l1Initialize deps ha hb =>
    rw [calldata, l1InitializeCalldataOfValues, Blueprint.plainAddress_eq_ok.mpr ha, Blueprint.plainAddress_eq_ok.mpr hb,
      bytecodeArgument_raw]
    rfl
  | l2Initialize ha hhash hb =>
    rw [calldata, l2InitializeCalldataOfValues, Blueprint.plainAddress_eq_ok.mpr ha, Blueprint.plainAddress_eq_ok.mpr hb]
    rfl

theorem Carries.exists_body (h : x.Carries args) : ∃ body, Abi.encode args = .ok body ∧
    x.calldata = .ok ((keccak256 (Bytes.ofString x.signature)).take 4 ++ body) := by
  obtain ⟨body, hbody⟩ := Abi.exists_encode_of_admits h.admits
  refine ⟨body, hbody, ?_⟩
  rw [h.calldata_eq, Abi.call, hbody, selector_signature]
  rfl

theorem length_selector (x : Invocation) : ((keccak256 (Bytes.ofString x.signature)).take 4).length = 4 := by
  rw [List.length_take, length_keccak256]
  rfl

theorem Carries.decode? (h : x.Carries args) {data : Bytes} (hdata : x.calldata = .ok data)
    (hlen : data.length < 2 ^ 256) : Abi.decode? x.kinds (data.drop 4) = some args := by
  obtain ⟨body, hbody, hcalldata⟩ := h.exists_body
  obtain rfl := Except.ok.inj (hcalldata.symm.trans hdata)
  rw [List.length_append] at hlen
  rw [List.drop_left' x.length_selector]
  exact Abi.decode?_encode h.admits hbody (by omega)

def Oversized : Invocation → Prop
  | .request gasLimit pubdataPrice .. =>
    ¬(0 ≤ gasLimit ∧ gasLimit < 2 ^ 256) ∨ ¬(0 ≤ pubdataPrice ∧ pubdataPrice < 2 ^ 256)
  | _ => False

theorem Oversized.exists_error (h : x.Oversized) : ∃ e, x.calldata = .error e := by
  apply Except.error_of_not_ok
  rintro ⟨data, hdata⟩
  cases x with
  | request gasLimit pubdataPrice deps refund =>
    obtain ⟨a, -, hcall⟩ := Except.bind_eq_ok.mp hdata
    have hfits := Abi.call_isOk_iff.mp ⟨data, Except.mapError_eq_ok.mp hcall⟩
    obtain hlimit | hprice := h
    · exact hlimit (hfits (.number gasLimit) (by simp [requestArguments]))
    · exact hprice (hfits (.number pubdataPrice) (by simp [requestArguments]))
  | l1Initialize => exact h
  | l2Initialize => exact h

/-- A call has calldata, its selector and data that are read back as the arguments that it is to carry, as long as
places in them have a word. So calls of one type that carry different arguments have different calldata. There is none
for a request with a number that no word holds. -/
theorem calldata_faithful :
    (∀ x args, Carries x args → ∃ body, x.calldata = .ok ((keccak256 (Bytes.ofString x.signature)).take 4 ++ body) ∧
      (body.length < 2 ^ 256 → Abi.decode? x.kinds body = some args)) ∧
    (∀ x y args args', x.kinds = y.kinds → Carries x args → Carries y args' → args ≠ args' →
      ∀ data : Bytes, data.length < 2 ^ 256 → x.calldata = .ok data → y.calldata ≠ .ok data) ∧
    ∀ x : Invocation, x.Oversized → ∃ e, x.calldata = .error e := by
  refine ⟨?_, ?_, fun x hx => hx.exists_error⟩
  · intro x args hx
    obtain ⟨body, hbody, hcalldata⟩ := hx.exists_body
    exact ⟨body, hcalldata, Abi.decode?_encode hx.admits hbody⟩
  · intro x y args args' hkinds hx hy hne data hlen hdata hdata'
    have hargs := hx.decode? hdata hlen
    rw [hkinds, hy.decode? hdata' hlen] at hargs
    exact hne (Option.some.inj hargs).symm

def sampleRequest : Invocation :=
  .request 72000000 800 [[], [0xde, 0xad, 0xbe, 0xef]] (.text "0X32400084c286CF3E17e7b677ea9583e60a000324")

def sampleRefund : Address :=
  .ofNat 0x32400084c286cf3e17e7b677ea9583e60a000324

def sampleArguments : List Abi.Argument :=
  [.address .zero, .number 0, .bytes [], .number 72000000, .number 800, .bytesList [[], [0xde, 0xad, 0xbe, 0xef]],
   .address sampleRefund]

theorem calldata_faithful_sampleRequest : sampleRequest.Carries sampleArguments ∧ ∃ body,
    sampleRequest.calldata = .ok ((keccak256 (Bytes.ofString sampleRequest.signature)).take 4 ++ body) ∧
      body.length = 448 ∧ Abi.decode? sampleRequest.kinds body = some sampleArguments := by
  have hrefund : Address.Denotes (.text "0X32400084c286CF3E17e7b677ea9583e60a000324") sampleRefund := by
    rw [Address.Denotes, Address.Spells]
    decide
  have hcarries : sampleRequest.Carries sampleArguments :=
    .request [[], [0xde, 0xad, 0xbe, 0xef]] (by norm_num) (by norm_num) hrefund
  obtain ⟨body, hcalldata, hdecode⟩ := calldata_faithful.1 _ _ hcarries
  obtain ⟨body', hencode, hcalldata'⟩ := hcarries.exists_body
  obtain rfl : body' = body := List.append_cancel_left (Except.ok.inj (hcalldata'.symm.trans hcalldata))
  have hsize : (Abi.encode sampleArguments).map List.length = .ok 448 := by decide +kernel
  rw [hencode] at hsize
  have hlen : body'.length = 448 := Except.ok.inj hsize
  exact ⟨hcarries, body', hcalldata, hlen, hdecode (by norm_num [hlen])⟩

end Invocation

end Bridge

end Settlement
