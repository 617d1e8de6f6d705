import Settlement.Rpc.Outcome

/-!
Remote calls. Every call has a number of its own; attempts at one call are equal, and the pause
between two of them doubles.
-/

namespace Settlement.Rpc

structure Client where
  url : String
  maxRetries : Int := 2
  backoff : Binary64 := .ofRatio false 1 4

abbrev Call (α : Type) := ExceptT Error (StateT Nat Session) α

namespace Client

variable [Platform]

def attempts (c : Client) : Nat :=
  (c.maxRetries + 1).toNat

def pauseAfter? (c : Client) (pauses : Nat) : Option Binary64 :=
  (Binary64.ofInt? (Nat.pow 2 pauses)).map c.backoff.mul

def checkRequest (r : Request) : Except Json.WriteError Unit :=
  Json.checkParams 1 r.params

/-- Up to `left` more attempts after `made` attempts, the last of which had the given problem. A pause that
cannot be made ends them. -/
def attempt (c : Client) (r : Request) : Nat → Nat → Option String → Session (Except Error Value)
  | 0, _, last => pure (.error (.transport r.method last))
  | left + 1, made, _ =>
    match checkRequest r with
    | .error e => pure (.error (.unwritable e))
    | .ok () => do
      match Outcome.ofExchange c.url r.method (← postRequest c.url r) with
      | .final result => pure result
      | .again problem =>
        if left = 0 then attempt c r left (made + 1) (some problem)
        else match c.pauseAfter? made with
          | none => pure (.error .overflow)
          | some seconds =>
            match ← pause seconds with
            | .ok () => attempt c r left (made + 1) (some problem)
            | .error f => pure (.error (.pause f))

def request (c : Client) (method : String) (params : List Value) : Call Value := do
  let made ← getModify (· + 1)
  ExceptT.mk (StateT.lift (c.attempt ⟨made + 1, method, params⟩ c.attempts 0 none))

def isMarked (bs : Bytes) : Bool :=
  (Bytes.ofString "0x").isPrefixOf bs

def quantity (method : String) (v : Value) : Except Error Int :=
  match v with
  | .text s =>
    if s.startsWith "0x" then (Integer.parse 16 s).mapError .quantity else .error (.notQuantity method v)
  | .halves bs =>
    if isMarked bs then (Integer.parseHalves 16 bs).mapError .quantity else .error (.notQuantity method v)
  | _ => .error (.notQuantity method v)

def requestQuantity (c : Client) (method : String) (params : List Value) : Call Int := do
  let v ← c.request method params
  ExceptT.mk (pure (quantity method v))

def chainId (c : Client) : Call Int :=
  c.requestQuantity "eth_chainId" []

def gasPrice (c : Client) : Call Int :=
  c.requestQuantity "eth_gasPrice" []

def transactionCount (c : Client) (address : String) (block : Value) : Call Int :=
  c.requestQuantity "eth_getTransactionCount" [.text address, block]

def estimateGas (c : Client) (transaction : Value) : Call Int :=
  c.requestQuantity "eth_estimateGas" [transaction]

def hexData (bs : Bytes) : Value :=
  .text ("0x" ++ Hex.ofBytes bs)

def data (method : String) (v : Value) : Except Error Bytes :=
  match v with
  | .text s =>
    match s.toList with
    | '0' :: 'x' :: cs =>
      match Hex.decodeSpaced? cs with
      | some bs => .ok bs
      | none => .error .digits
    | _ => .error (.notData method v)
  | .halves bs => .error (if isMarked bs then .digits else .notData method v)
  | _ => .error (.notData method v)

def call (c : Client) (contract : String) (input : Bytes) (block : Value) : Call Bytes := do
  let v ← c.request "eth_call" [.object [("to", .text contract), ("data", hexData input)], block]
  ExceptT.mk (pure (data "eth_call" v))

def sendRawTransaction (c : Client) (raw : Bytes) : Call Value := do
  match ← c.request "eth_sendRawTransaction" [hexData raw] with
  | .text hash => pure (.text hash)
  | .halves hash => pure (.halves hash)
  | v => throw (.notHash "eth_sendRawTransaction" v)

def poll (c : Client) (hash : Value) (deadline interval : Binary64) : Nat → Call Value
  | 0 => throw (.timedOut hash)
  | fuel + 1 => do
    match ← c.request "eth_getTransactionReceipt" [hash] with
    | .null =>
      let now ← currentTime
      if deadline.le now then throw (.timedOut hash)
      match ← pause interval with
      | .ok () => poll c hash deadline interval fuel
      | .error f => throw (.pause f)
    | receipt => pure receipt

/-- More polls than fit between now and the deadline: each comes an interval after the one before, and
rounding takes less than half of it. Without an interval a great number. -/
def pollBound (timeout interval : Binary64) : Nat :=
  match timeout.toRatio?, interval.toRatio? with
  | some (a, b), some (c, d) => if 0 < c then 2 * (a.toNat * d / (b * c.toNat)) + 16 else 1000000
  | _, _ => 1000000

def waitForReceipt (c : Client) (hash : Value) (timeout interval : Binary64) : Call Value := do
  let now ← currentTime
  c.poll hash (now.add timeout) interval (pollBound timeout interval)

end Client

end Settlement.Rpc
