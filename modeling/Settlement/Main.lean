import Settlement.Command.Bridge
import Settlement.Command.Verify
import Settlement.Rpc.Http
import Std.Async.DNS
import Std.Async.TCP

namespace Settlement.CommandLine

open Std.Async Std.Net

def fileState (path : String) : IO FileState := do
  try
    let bytes ← IO.FS.readBinFile path
    pure (.content bytes.toList)
  catch
    | .noFileOrDirectory .. => pure .missing
    | _ => pure .unreadable

def socketAddress (port : Nat) : IPAddr → SocketAddress
  | .v4 a => .v4 ⟨a, port.toUInt16⟩
  | .v6 a => .v6 ⟨a, port.toUInt16⟩

partial def receive (socket : TCP.Socket.Client) (acc : ByteArray) : Async ByteArray := do
  match ← socket.recv? 65536 with
  | some bytes => receive socket (acc ++ bytes)
  | none => pure acc

def converse (e : Rpc.Endpoint) (message : String) : Async String := do
  let addresses ← DNS.getAddrInfo e.host (toString e.port)
  match addresses[0]? with
  | none => throw (IO.userError "host not found")
  | some address =>
    let socket ← TCP.Socket.Client.mk
    socket.connect (socketAddress e.port address)
    socket.send message.toUTF8
    match String.fromUTF8? (← receive socket .empty) with
    | some text => pure text
    | none => throw (IO.userError "answer is not UTF-8")

def exchange (url : String) (r : Request) : IO Exchange := do
  match Rpc.Endpoint.parse? url with
  | none => pure (.badEndpoint "UnsupportedProtocol" "not an http:// URL")
  | some e =>
    try
      let answer ← (converse e (e.posting r)).block
      pure ((Rpc.readAnswer answer).getD (.transportFailed "malformed answer"))
    catch err => pure (.transportFailed (toString err))

def milliseconds (seconds : Binary64) : Nat :=
  ((seconds.mul (.ofInt 1000)).round?.getD 0).toNat

def interpret {α : Type} : Session α → IO α
  | .done a => pure a
  | .read path next => do interpret (next (← fileState path))
  | .post url request next => do interpret (next (← exchange url request))
  | .sleep seconds next => do
    IO.sleep (milliseconds seconds).toUInt32
    interpret next
  | .clock next => do interpret (next (.ofRatio false (← IO.monoMsNow) 1000))
  | .print .out line next => do
    IO.println line
    interpret next
  | .print .err line next => do
    IO.eprintln line
    interpret next

def finish {Fault : Type} (program : String) (usage : List String) (message : Fault → String)
    (e : Command.Ending Fault) : IO UInt32 := do
  match e with
  | .usage => for line in usage do IO.eprintln ("usage: " ++ program ++ " " ++ line)
  | .fault f => IO.eprintln (program ++ ": " ++ message f)
  | .exit _ => pure ()
  pure e.status.toUInt32

def environment (names : List String) : IO Environment := do
  let values ← names.mapM fun name => do pure (name, ← IO.getEnv name)
  pure fun name => (values.lookup name).join

end Settlement.CommandLine

open Settlement Settlement.CommandLine in
def main (args : List String) : IO UInt32 := do
  let := Platform.standard
  match args with
  | "zk-verify" :: args =>
    let env ← environment Verifier.Settings.variableNames
    finish "zk-verify" Command.Verify.usage Command.Verify.Fault.message
      (← interpret (Command.Verify.session env args))
  | "bridge-init" :: args =>
    let env ← environment Bridge.Config.variableNames
    finish "bridge-init" Command.Bridge.usage Command.Bridge.Fault.message
      (← interpret (Command.Bridge.session env args))
  | _ =>
    IO.eprintln "usage: zk-verify | bridge-init"
    pure 2
