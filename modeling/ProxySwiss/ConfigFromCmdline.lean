import ProxySwiss.UrlParser
import ProxySwiss.Session

/-!
# The command line

The arguments name the input and the proxies of the chain. The variables that a
proxy is parsed into belong to the whole loop. `none` says that the rounds given
to the loop over an IPv6 address were not enough. The octets of an IPv6 address
to listen on are read through a pointer into an address that is gone: what is
read there is the parameter `stale`.
-/

set_option autoImplicit false

namespace ProxySwiss.ConfigFromCmdline
open Memory Text InetPton UrlParser

abbrev Wide := List UInt16

/-- A string that a program is started with, without the zero that ends it. -/
structure Argument where
  text : Wide
  clean : 0 ∉ text

inductive InputType where
  | tunnel
  | proxyServer
  deriving DecidableEq, Repr

structure Endpoint where
  address : Address := default
  port : UInt16 := 0
  deriving DecidableEq

/-- The records of both types are there, whatever the type is. -/
structure InputT where
  type : InputType
  listenAddr : Endpoint := {}
  asTunnel : Destination := {}
  asProxyServer : ServerProxyType

/-- The record that a command line fills in. -/
structure ProxyswissConfig where
  input : InputT
  proxyChain : List ProxyClientInfo := []

def serverSessionTypeFromString (str : Wide) : Option ServerProxyType :=
  if str = tstr "socks5" then some .socks5
  else if str = tstr "https" then some .https
  else none

def clientSessionTypeFromString (str : Wide) : Option ClientProxyType :=
  if str = tstr "socks5" then some .socks5 else none

def wstrToStr (str : Wide) : Bytes := str.map wcharToChar

def kPrintfBufSize : ℕ := 4096*4

/-- What does not fit in the buffer is cut off. -/
def strPrintf (parts : List Wide) : Wide := parts.flatten.take (kPrintfBufSize-1)

/-- Only the formats IPv4:port and IPv6:port are allowed. `ip_addr` returns the
address by value, and the pointer that `ipv6` returns leads into it: the octets
are copied when it has been destroyed, and `stale` is what they are by then. -/
def endpointFromString (stale : Buffer 16 → Buffer 16) (fuel : ℕ) (str : Wide) :
    Option (Except Wide Endpoint) :=
  let kBadMsgText : Wide := tstr "bad ip:port format"
  (parse fuel str).map fun r => match r with
  | none => .error kBadMsgText
  | some up =>
    if up.scheme ≠ none then .error (kBadMsgText ++ tstr ", no scheme:// is allowed")
    else if up.path ≠ [] then .error (kBadMsgText ++ tstr ", no /path is allowed")
    else if up.username ≠ none ∨ up.password ≠ none then
      .error (kBadMsgText ++ tstr ", no username/password is allowed")
    else match up.port with
    | none => .error (kBadMsgText ++ tstr ", port is required")
    | some port => match up.host with
      | .hostname _ => .error (kBadMsgText ++ tstr ", only ipv4/ipv6, no hostnames")
      | .ipAddr (.v4 addr) => .ok ⟨.v4 (htonl addr),port⟩
      | .ipAddr (.v6 bytes) => .ok ⟨.v6 (stale bytes),port⟩

/-- The block to be replaced by `destination_from_url_parser`, and whether its
assertions hold. -/
def destinationFromHost (dst : Destination) (host : HostAddress) (port : UInt16) :
    Destination × Bool :=
  match host with
  | .ipAddr (.v4 addr) =>
    let dst : Destination := ⟨[],.v4 (htonl addr),port⟩
    (dst,!dst.usingHostname)
  | .ipAddr (.v6 bytes) =>
    let dst : Destination := ⟨[],.v6 bytes,port⟩
    (dst,!dst.usingHostname)
  | .hostname name =>
    let dst := { dst with hostname := name, port := port }
    (dst,dst.usingHostname)

/-- Half of the credentials is no credentials. -/
def credentialsFrom (username password : Option Wide) : Credentials :=
  match username, password with
  | some username, some password => ⟨wstrToStr username,wstrToStr password⟩
  | _, _ => {}

/-- What is written through the pointers; two of them may be null. -/
structure ProxyInfo where
  dst : Destination
  proxyType : Option Wide
  creds : Option Credentials
  asserted : Bool

/-- The formats IPv4:port, IPv6:port and hostname:port are allowed. Nothing is
written when the text is refused. -/
def proxyInfoFromString (fuel : ℕ) (str : Wide) (dst : Destination) (pproxyType : Option Wide)
    (pcreds : Option Credentials) : Option (Except Wide ProxyInfo) :=
  let kBadMsgText : Wide := tstr "bad format"
  (parse fuel str).map fun r => match r with
  | none => .error kBadMsgText
  | some up =>
    if up.path ≠ [] then .error (kBadMsgText ++ tstr ", /path is not allowed")
    else if pproxyType ≠ none ∧ up.scheme = none then
      .error (kBadMsgText ++ tstr ", proxy_type:// is required")
    else if pproxyType = none ∧ up.scheme ≠ none then
      .error (kBadMsgText ++ tstr ", no proxy_type:// is not allowed")
    else if pcreds = none ∧ (up.username ≠ none ∨ up.password ≠ none) then
      .error (kBadMsgText ++ tstr ", no username:pass@ is allowed")
    else match up.port with
    | none => .error (kBadMsgText ++ tstr ", port is required")
    | some port =>
      let (dst,asserted) := destinationFromHost dst up.host port
      .ok ⟨dst,pproxyType.bind fun _ => up.scheme,
        pcreds.map fun _ => credentialsFrom up.username up.password,asserted⟩

structure Locals where
  host : Destination := {}
  creds : Credentials := {}
  proxyTypeStr : Wide := []

def Locals.assign (l : Locals) (info : ProxyInfo) : Locals :=
  ⟨info.dst,info.creds.getD l.creds,info.proxyType.getD l.proxyTypeStr⟩

structure Result where
  code : ℤ
  cfg : ProxyswissConfig
  errMsg : Wide

/-- The arguments from the one with the number `i` on. -/
def proxyChainFrom (fuel i : ℕ) (fv : List Argument) (l : Locals) (cfg : ProxyswissConfig)
    (errMsg : Wide) : Option Result :=
  match fv with
  | [] => some ⟨0,cfg,errMsg⟩
  | arg::fv =>
    (proxyInfoFromString fuel arg.text l.host (some l.proxyTypeStr) (some l.creds)).bind
      fun r => match r with
      | .error subErrMsg => some ⟨-1,cfg,strPrintf [tstr "Can't parse proxy-chain[",
          strToTstr (strFromUint i),tstr "] (",arg.text,tstr "): ",subErrMsg]⟩
      | .ok info =>
        let l := l.assign info
        match clientSessionTypeFromString l.proxyTypeStr with
        | none => some ⟨-1,cfg,strPrintf [tstr "Bad proxy type (",l.proxyTypeStr,
            tstr ") in proxy-chain[",strToTstr (strFromUint i),tstr "]"]⟩
        | some cliType =>
          let cfg := { cfg with proxyChain := cfg.proxyChain ++ [⟨cliType,l.host,l.creds⟩] }
          proxyChainFrom fuel (i+1) fv l cfg errMsg

def tunnelFrom (stale : Buffer 16 → Buffer 16) (fuel : ℕ) (tunIn tunOut : Argument)
    (fv : List Argument) (cfg : ProxyswissConfig) (errMsg : Wide) : Option Result :=
  let cfg := { cfg with input := { cfg.input with type := .tunnel } }
  (endpointFromString stale fuel tunIn.text).bind fun r => match r with
  | .error subErrMsg =>
    some ⟨-1,cfg,strPrintf [tstr "Can't parse tunIn(",tunIn.text,tstr "): ",subErrMsg]⟩
  | .ok ep =>
    let cfg := { cfg with input := { cfg.input with listenAddr := ep } }
    (proxyInfoFromString fuel tunOut.text cfg.input.asTunnel none none).bind fun r => match r with
    | .error subErrMsg =>
      some ⟨-1,cfg,strPrintf [tstr "Can't parse tunOut(",tunOut.text,tstr "): ",subErrMsg]⟩
    | .ok info =>
      let cfg := { cfg with input := { cfg.input with asTunnel := info.dst } }
      proxyChainFrom fuel 3 fv {} cfg errMsg

def proxyFrom (fuel : ℕ) (inProxy : Argument) (fv : List Argument) (cfg : ProxyswissConfig)
    (errMsg : Wide) : Option Result :=
  let cfg := { cfg with input := { cfg.input with type := .proxyServer } }
  (proxyInfoFromString fuel inProxy.text {} (some []) none).bind fun r => match r with
  | .error subErrMsg =>
    some ⟨-1,cfg,strPrintf [tstr "Can't parse inProxy(",inProxy.text,tstr "): ",subErrMsg]⟩
  | .ok info =>
    let l := ({} : Locals).assign info
    match serverSessionTypeFromString l.proxyTypeStr with
    | none => some ⟨-1,cfg,tstr "Bad proxy type in inProxy"⟩
    | some srvType =>
      if l.host.usingHostname then
        some ⟨-1,cfg,tstr "Only IP addresses are allowed in inProxy"⟩
      else
        let cfg := { cfg with input := { cfg.input with
          asProxyServer := srvType, listenAddr := ⟨l.host.ipAddress,l.host.port⟩ } }
        proxyChainFrom fuel 2 fv l cfg errMsg

/-- The code is 0, or -1 with a message, or 1 when arguments are missing. -/
def configFromCmdline (stale : Buffer 16 → Buffer 16) (fuel : ℕ) (fv : List Argument)
    (cfg : ProxyswissConfig) (errMsg : Wide) : Option Result :=
  match fv with
  | inType::first::rest =>
    if inType.text = tstr "tunnel" then
      match rest with
      | tunOut::rest => tunnelFrom stale fuel first tunOut rest cfg errMsg
      | [] => some ⟨1,cfg,errMsg⟩
    else if inType.text = tstr "proxy" then proxyFrom fuel first rest cfg errMsg
    else some ⟨-1,cfg,tstr "Unknown inType"⟩
  | _ => some ⟨1,cfg,errMsg⟩

end ProxySwiss.ConfigFromCmdline
