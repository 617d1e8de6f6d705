import Mathlib
import Settlement.Bridge.BringUp
import Settlement.Hash.Sha2
import Settlement.Proofs.Abi

namespace Settlement

theorem length_sha256 (msg : Bytes) : (sha256 msg).length = 32 := by
  simp [sha256, Sha2.finish, Sha2.State.toBytes, Sha2.Word.toBytes]

namespace Bytecode

def IsHashable (code : Bytes) : Prop :=
  code.length % 32 = 0 ∧ code.length / 32 < 2 ^ 16 ∧ code.length / 32 % 2 = 1

def versioned (code : Bytes) : Bytes :=
  version :: 0 :: Bytes.ofNat 2 (code.length / 32) ++ (sha256 code).drop 4

@[simp]
theorem length_versioned (code : Bytes) : (versioned code).length = 32 := by
  simp [versioned, Bytes.length_ofNat, length_sha256]

variable {code hashed : Bytes} {n : ℕ}

theorem words_eq_ok : words code = .ok n ↔ IsHashable code ∧ n = code.length / 32 := by
  have hmax : maxWords = 2 ^ 16 := rfl
  rw [words, IsHashable]
  by_cases hpartial : code.length % 32 = 0
  · rw [if_neg (not_not.mpr hpartial), hmax]
    by_cases hlong : 2 ^ 16 ≤ code.length / 32
    · rw [if_pos hlong]
      exact iff_of_false nofun fun h => absurd h.1.2.1 (not_lt.mpr hlong)
    · rw [if_neg hlong]
      by_cases heven : code.length / 32 % 2 = 0
      · rw [if_pos heven]
        exact iff_of_false nofun fun h => absurd h.1.2.2 (by omega)
      · rw [if_neg heven, Except.ok.injEq, eq_comm]
        exact (and_iff_right ⟨hpartial, not_le.mp hlong, by omega⟩).symm
  · rw [if_pos hpartial]
    exact iff_of_false nofun fun h => hpartial h.1.1

theorem hash_eq_ok : hash code = .ok hashed ↔ IsHashable code ∧ hashed = versioned code := by
  constructor
  · intro h
    obtain ⟨n, hn, heq⟩ := Except.bind_eq_ok.mp h
    obtain ⟨hcode, rfl⟩ := words_eq_ok.mp hn
    exact ⟨hcode, (Except.ok.inj heq).symm⟩
  · rintro ⟨hcode, rfl⟩
    exact Except.bind_eq_ok.mpr ⟨_, words_eq_ok.mpr ⟨hcode, rfl⟩, rfl⟩

theorem hashSource_eq_ok {source : Source} :
    hashSource source = .ok hashed ↔ ∃ code, source.read = .ok code ∧ IsHashable code ∧ hashed = versioned code := by
  rw [hashSource, Except.bind_eq_ok]
  exact exists_congr fun code => and_congr_right fun _ => hash_eq_ok

theorem length_hash (h : hash code = .ok hashed) : hashed.length = 32 := by
  obtain ⟨-, rfl⟩ := hash_eq_ok.mp h
  exact length_versioned code

end Bytecode

namespace Bridge

theorem exists_bytecode_of_derive {Code : Type} {hash : Code → Except Bytecode.Error Bytes}
    (hlen : ∀ code bs, hash code = .ok bs → bs.length = 32) {l1Bridge governor : Address} {a : Artifacts Code} {e : Error}
    (h : derive hash l1Bridge governor a = .error e) : ∃ e', e = .bytecode e' := by
  have hhash {code : Code} {e : Error} (h : (hash code).mapError .bytecode = .error e) : ∃ e', e = .bytecode e' := by
    obtain ⟨e', -, rfl⟩ := Except.mapError_eq_error h
    exact ⟨e', rfl⟩
  have hplace {sender : Address} {code : Code} {input : Bytes} {e : Error}
      (h : place hash sender code input = .error e) : ∃ e', e = .bytecode e' := by
    obtain hfirst | ⟨bs, -, hlast⟩ := Except.bind_eq_error.mp h
    · exact hhash hfirst
    · cases hlast
  have hnone {x : Except Abi.Error Bytes} (hx : ∃ bs, x = .ok bs) {e : Error} (h : x.mapError .encoding = .error e) :
      False := by
    obtain ⟨bs, rfl⟩ := hx
    cases h
  obtain hfirst | ⟨implementation, -, h⟩ := Except.bind_eq_error.mp h
  · exact hplace hfirst
  obtain hbeacon | ⟨beaconHash, hbeacon, h⟩ := Except.bind_eq_error.mp h
  · exact hhash hbeacon
  have hbound : beaconHash.length ≤ 32 := (hlen _ _ (Except.mapError_eq_ok.mp hbeacon)).le
  obtain hinit | ⟨initData, -, h⟩ := Except.bind_eq_error.mp h
  · exact (hnone (Abi.call_isOk_iff.mpr (by simp [Abi.Argument.Fits, hbound])) hinit).elim
  obtain hinput | ⟨proxyInput, -, h⟩ := Except.bind_eq_error.mp h
  · exact (hnone (Abi.encode_isOk_iff.mpr (by simp [Abi.Argument.Fits])) hinput).elim
  obtain hproxy | ⟨proxy, -, h⟩ := Except.bind_eq_error.mp h
  · exact hplace hproxy
  obtain htoken | ⟨token, -, h⟩ := Except.bind_eq_error.mp h
  · exact hplace htoken
  obtain hinput | ⟨factoryInput, -, h⟩ := Except.bind_eq_error.mp h
  · exact (hnone (Abi.encode_isOk_iff.mpr (by simp [Abi.Argument.Fits])) hinput).elim
  obtain hfactory | ⟨factory, -, h⟩ := Except.bind_eq_error.mp h
  · exact hplace hfactory
  · cases h

namespace BringUp

def IsEncodable (config : Config) : Prop :=
  (0 ≤ config.priorityGasLimit ∧ config.priorityGasLimit < 2 ^ 256) ∧
    (0 ≤ config.gasPerPubdata ∧ config.gasPerPubdata < 2 ^ 256)

variable {config : Config} {a : Artifacts Bytes}

theorem exists_publish (h : IsEncodable config) (deployer : Address) : ∃ call, publish config deployer a = .ok call := by
  obtain ⟨hlimit, hpubdata⟩ := h
  have hcall : ∃ data, requestCalldata config.priorityGasLimit config.gasPerPubdata
      [a.upgradeableBeacon, a.l2StandardToken] deployer = .ok data := by
    apply Abi.call_isOk_iff.mpr
    simp only [requestArguments, List.forall_mem_cons, Abi.Argument.Fits]
    exact ⟨trivial, by norm_num, trivial, hlimit, hpubdata, trivial, trivial, by simp⟩
  obtain ⟨data, hdata⟩ := hcall
  exact ⟨⟨config.diamondProxy, data⟩, by rw [publish, hdata]; rfl⟩

theorem exists_deploy (tokenFactory governor : Address) : ∃ call, deploy config a tokenFactory governor = .ok call := by
  have hcall : ∃ data, l1InitializeCalldata [a.l2Bridge, a.transparentProxy, a.beaconProxy] tokenFactory governor =
      .ok data := Abi.call_isOk_iff.mpr (by simp [Abi.Argument.Fits])
  obtain ⟨data, hdata⟩ := hcall
  exact ⟨⟨config.l1Bridge, data⟩, by rw [deploy, hdata]; rfl⟩

end BringUp

end Bridge

end Settlement
