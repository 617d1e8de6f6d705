import Settlement.Json.Printer
import Settlement.Session

namespace Settlement.Rpc

def envelope (r : Request) : Value :=
  .object
    [("jsonrpc", .text "2.0"), ("id", .int r.id), ("method", .text r.method), ("params", .list r.params)]

structure Endpoint where
  host : String
  port : Nat
  path : String
  deriving DecidableEq

namespace Endpoint

def scheme : String := "http://"

def standardPort : Nat := 80

def splitPort (authority : String) : Option (String × Nat) :=
  match authority.splitOn ":" with
  | [host] => some (host, standardPort)
  | [host, port] => if port.isEmpty then some (host, standardPort) else port.toNat?.map (host, ·)
  | _ => none

def parse? (url : String) : Option Endpoint := do
  guard (url.startsWith scheme)
  let rest := url.toList.drop scheme.length
  let authority := String.ofList (rest.takeWhile (· != '/'))
  let path := String.ofList (rest.dropWhile (· != '/'))
  let (host, port) ← splitPort authority
  guard (host != "" ∧ port < 65536)
  some ⟨host, port, if path.isEmpty then "/" else path⟩

def message (e : Endpoint) (body : String) : String :=
  String.intercalate "\r\n"
    ["POST " ++ e.path ++ " HTTP/1.0",
     "Host: " ++ e.host ++ ":" ++ toString e.port,
     "Content-Type: application/json",
     "Accept: application/json",
     "Content-Length: " ++ toString body.utf8ByteSize,
     "",
     body]

def posting (e : Endpoint) (r : Request) : String :=
  e.message (Json.compact (envelope r))

end Endpoint

def bodyBehindHeaders : List Char → Option (List Char)
  | '\r' :: '\n' :: '\r' :: '\n' :: body => some body
  | _ :: cs => bodyBehindHeaders cs
  | [] => none

def readAnswer (text : String) : Option Exchange := do
  let status ← (text.splitOn " ")[1]?.bind String.toNat?
  let body ← bodyBehindHeaders text.toList
  some (.response status (String.ofList body))

end Settlement.Rpc
