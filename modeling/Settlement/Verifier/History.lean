import Settlement.Verifier

/-!
A store over its life: installations, looks at the active key, and verifications under it, one after the other. An
installation puts the key in place before it computes the digest that it reports.
-/

namespace Settlement

open Bn254

inductive KeyLoader where
  | json (path : String) (content : Option Bytes)
  | static (doc : KeyDocument) (key : Key) (built : Key.ofDocument doc = .ok key)

def KeyLoader.load : KeyLoader → Except LoadFailure Key
  | .json path content => Key.load path content
  | .static _ key _ => .ok key

def Key.digest? (key : Key) : Except WidthError Bytes := do
  pure (keccak256 (← key.words.mapM toBytes32).flatten)

namespace KeyStore

inductive Step where
  | install (loader : KeyLoader) (replace : Bool)
  | get
  | initialized
  | verify (inputs : List Value) (proof : ProofInput) (meter : Option Meter)

inductive Reply where
  | installed (key : Key) (digest : Bytes)
  | refused (e : InstallError)
  -- the key is in place, but there is no digest to report
  | unreported (e : WidthError)
  | active (key : Except Rejection Key)
  | initialized (b : Bool)
  | verdict (v : Except Failure Verifier.Verdict) (meter : Option Meter)

def step [PairingSteps] (store : KeyStore) : Step → Reply × KeyStore
  | .install loader replace =>
    match store.install loader.load replace with
    | .error e => (.refused e, store)
    | .ok (key, store) =>
      match key.digest? with
      | .ok digest => (.installed key digest, store)
      | .error e => (.unreported e, store)
  | .get => (.active store.get, store)
  | .initialized => (.initialized store.isInitialized, store)
  | .verify inputs proof meter =>
    let (v, meter) := Verifier.verify store inputs proof meter
    (.verdict v meter, store)

def run [PairingSteps] (store : KeyStore) : List Step → List Reply × KeyStore
  | [] => ([], store)
  | a :: steps =>
    let (reply, store) := store.step a
    let (replies, store) := store.run steps
    (reply :: replies, store)

end KeyStore

end Settlement
