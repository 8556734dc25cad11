import Rrq.Producer
import Rrq.Utf8
import Rrq.Wire

-- The sockets of runners, as the settings give them and as a runner is told its own.

namespace Rrq.TcpSocket

open Utf8

inductive IpAddr where
  | V4 (a b c d : UInt8)
  | V6 (bits : BitVec 128)
deriving DecidableEq

namespace IpAddr

def LOCALHOST : IpAddr := .V4 127 0 0 1

def isLoopback : IpAddr → Bool
  | V4 a _ _ _ => a = 127
  | V6 bits => bits = 1

end IpAddr

structure SocketAddr where
  ip : IpAddr
  port : Nat
deriving DecidableEq

structure TcpSocketSpec where
  host : IpAddr
  port : Nat
deriving DecidableEq

def TcpSocketSpec.addr (spec : TcpSocketSpec) (port : Nat) : SocketAddr := ⟨spec.host, port⟩

-- What the standard library and the resolver are asked for.
structure Net where
  printV6 : BitVec 128 → List Char
  parseV6 : List Char → Option (BitVec 128)
  toSocketAddrs : List Char → Nat → Option (List IpAddr)

def decimal (n : Nat) : List Char := n.repr.toList

def dotted (a b c d : UInt8) : List Char :=
  decimal a.toNat ++ '.' :: (decimal b.toNat ++ '.' :: (decimal c.toNat ++ '.' :: decimal d.toNat))

def Net.display (net : Net) : SocketAddr → List Char
  | ⟨.V4 a b c d, port⟩ => dotted a b c d ++ ':' :: decimal port
  | ⟨.V6 bits, port⟩ => '[' :: net.printV6 bits ++ [']', ':'] ++ decimal port

-- One to three digits, without a zero in front.
def parseOctet (text : List Char) : Option UInt8 :=
  if text.length ≤ 3 ∧ (text.head? = some '0' → text.length = 1) then
    (digitsValue text).bind fun n => if n < 256 then some (UInt8.ofNat n.toNat) else none
  else none

def parseV4 (text : List Char) : Option IpAddr :=
  match (text.splitOn '.').mapM parseOctet with
  | some [a, b, c, d] => some (.V4 a b c d)
  | _ => none

def Net.parseIp (net : Net) (text : List Char) : Option IpAddr :=
  (parseV4 text).or ((net.parseV6 text).map .V6)

-- An unsigned number may have a plus sign in front.
def unsigned : List Char → List Char
  | '+' :: digits => digits
  | digits => digits

def parseU16 (text : List Char) : Option Nat :=
  (digitsValue (unsigned text)).bind fun n => if n ≤ 65535 then some n.toNat else none

def eqIgnoreAsciiCase (a b : List Char) : Bool := a.map Char.toLower = b.map Char.toLower

def quoted (text : List Char) : String := "'" ++ String.ofList text ++ "'"

-- The parser of the settings.

def splitSpec (raw : List Char) : Except String (List Char × List Char) :=
  match stripPrefix ['['] raw with
  | some rest =>
      match splitOnce [']', ':'] rest with
      | some parts => .ok parts
      | none => .error "tcp_socket must be in [host]:port format"
  | none =>
      match rsplitOnce ':' raw with
      | none => .error "tcp_socket must be in host:port format"
      | some (host, portStr) =>
          if host = [] then .error "tcp_socket host cannot be empty" else .ok (host, portStr)

def parsePort (portStr : List Char) : Except String Nat :=
  match parseU16 portStr with
  | none => .error ("invalid tcp_socket port " ++ quoted portStr ++ " - must be 1-65535")
  | some port => if port = 0 then .error "tcp_socket port must be > 0" else .ok port

def parseHost (net : Net) (host : List Char) (port : Nat) (isAllowedHost : Bool) :
    Except String IpAddr :=
  if host = "localhost".toList then .ok IpAddr.LOCALHOST
  else
    match net.parseIp host with
    | some parsed =>
        if !parsed.isLoopback && !isAllowedHost then
          .error ("tcp_socket host must be loopback (127.0.0.1, ::1, or localhost) " ++
            "for security, or explicitly listed in allowed_hosts - got " ++ quoted host)
        else .ok parsed
    | none =>
        if !isAllowedHost then
          .error ("tcp_socket hostname " ++ quoted host ++
            " is not allowed; add it to allowed_hosts")
        else
          match net.toSocketAddrs host port with
          | none => .error ("invalid tcp_socket host " ++ quoted host)
          | some [] =>
              .error ("invalid tcp_socket host " ++ quoted host ++ " - no addresses resolved")
          | some (ip :: _) => .ok ip

def parseTcpSocketWithAllowedHosts (net : Net) (raw : List Char)
    (allowedHosts : List (List Char)) : Except String TcpSocketSpec :=
  let raw := trim Producer.isWhitespace raw
  if raw = [] then .error "tcp_socket cannot be empty"
  else do
    let (host, portStr) ← splitSpec raw
    let port ← parsePort portStr
    let isAllowedHost := allowedHosts.any fun allowed => eqIgnoreAsciiCase allowed host
    let ip ← parseHost net host port isAllowedHost
    pure ⟨ip, port⟩

def parseTcpSocket (net : Net) (raw : List Char) : Except String TcpSocketSpec :=
  parseTcpSocketWithAllowedHosts net raw []

-- The parser of the runner.

namespace Runtime

def splitSpec (raw : List Char) : Except String (List Char × List Char) :=
  match stripPrefix ['['] raw with
  | some rest =>
      match splitOnce [']', ':'] rest with
      | some parts => .ok parts
      | none => .error "runner tcp_socket must be in [host]:port format"
  | none =>
      match rsplitOnce ':' raw with
      | none => .error "runner tcp_socket must be in host:port format"
      | some (host, portStr) =>
          if host = [] then .error "runner tcp_socket host cannot be empty"
          else .ok (host, portStr)

def parsePort (portStr : List Char) : Except String Nat :=
  match parseU16 portStr with
  | none => .error ("Invalid runner tcp_socket port: " ++ String.ofList portStr)
  | some port => if port = 0 then .error "runner tcp_socket port must be > 0" else .ok port

def parseHost (net : Net) (host : List Char) : Except String IpAddr :=
  if host = "localhost".toList then .ok IpAddr.LOCALHOST
  else
    match net.parseIp host with
    | none => .error ("Invalid runner tcp_socket host: " ++ String.ofList host)
    | some parsed =>
        if !parsed.isLoopback then .error "runner tcp_socket host must be localhost"
        else .ok parsed

def parseTcpSocket (net : Net) (raw : List Char) : Except String SocketAddr :=
  let raw := trim Producer.isWhitespace raw
  if raw = [] then .error "runner tcp_socket cannot be empty"
  else do
    let (host, portStr) ← splitSpec raw
    let port ← parsePort portStr
    let ip ← parseHost net host
    pure ⟨ip, port⟩

end Runtime

end Rrq.TcpSocket
