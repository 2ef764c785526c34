import ProxySwiss.InetPtonLoop

/-!
# The URL parser

`none` says that the rounds given to the loop over an IPv6 address were not
enough, and `some none` that the text is not accepted. A position in the text
is kept from part to part, as in the source.
-/

set_option autoImplicit false

namespace ProxySwiss
open Memory Text InetPton

inductive HostAddress where
  | ipAddr (ip : IpAddress)
  | hostname (name : Bytes)
  deriving DecidableEq

structure UrlParser (T : Type) where
  scheme : Option (List T)
  username : Option (List T)
  password : Option (List T)
  host : HostAddress
  port : Option UInt16
  path : List T

namespace UrlParser

variable {T : Type} [CharT T]

def tstr (s : String) : List T := strToTstr (ascii s)
def tchar (c : Char) : T := CharT.ofChar (UInt8.ofNat c.toNat)

/-- An empty scheme is disallowed. -/
def parseScheme (url : List T) : Option (Option (List T) × ℕ) :=
  match find (tstr "://") url 0 with
  | some x => if x = 0 then none else some (some (substr url 0 x),x+3)
  | none => some (none,0)

def parseUserinfo (url : List T) (x : ℕ) : Option (List T) × Option (List T) × ℕ :=
  match find (tstr "@") url x with
  | some y =>
    let unamePwd := substr url x (y-x)
    match find (tstr ":") unamePwd 0 with
    | some z => (some (substr unamePwd 0 z),some (unamePwd.drop (z+1)),y+1)
    | none => (some unamePwd,none,y+1)
  | none => (none,none,x)

/-- Where the host ends: at a colon, or at a slash if there is none. -/
def hostEnd (url : List T) (x : ℕ) : Option ℕ :=
  match find [tchar ':'] url x with
  | some z => some z
  | none => find [tchar '/'] url x

/-- Unexpected characters right behind the bracket are not accepted. -/
def parseIpv6Host (fuel : ℕ) (url : List T) (x : ℕ) : Option (Option (HostAddress × ℕ)) :=
  match find [tchar ']'] url (x+1) with
  | none => some none
  | some z =>
    (fromStringIpv6 fuel (substr url (x+1) (z-(x+1)))).map fun r => r.bind fun ip =>
      if z+1 ≠ (hostEnd url (z+1)).getD url.length then none
      else some (.ipAddr ip,z+1)

def parseNamedHost (fuel : ℕ) (url : List T) (x : ℕ) : Option (Option (HostAddress × ℕ)) :=
  let hostRaw := match hostEnd url x with
    | some z => substr url x (z-x)
    | none => url.drop x
  (fromStringIpv4 fuel hostRaw).map fun r => match r with
    | some ip => some (.ipAddr ip,x+hostRaw.length)
    | none =>
      if hostRaw = [] then none
      else some (.hostname (hostRaw.map CharT.toChar),x+hostRaw.length)

def parseHost (fuel : ℕ) (url : List T) (x : ℕ) : Option (Option (HostAddress × ℕ)) :=
  if charAt url x = tchar '[' then parseIpv6Host fuel url x else parseNamedHost fuel url x

def parsePort (url : List T) (x : ℕ) : Option (Option UInt16 × ℕ) :=
  if charAt url x = tchar ':' then
    let z := find [tchar '/'] url x
    let portRaw := match z with
      | some z => substr url (x+1) (z-(x+1))
      | none => url.drop (x+1)
    match strToUint portRaw with
    | none => none
    | some port32 =>
      if port32 > 0xffff then none else some (some (UInt16.ofNat port32),z.getD url.length)
  else some (none,x)

def parsePath (url : List T) (x : ℕ) : List T :=
  if charAt url x = tchar '/' then url.drop x else []

def parse (fuel : ℕ) (url : List T) : Option (Option (UrlParser T)) :=
  match parseScheme url with
  | none => some none
  | some (scheme,x) =>
    let (username,password,x) := parseUserinfo url x
    (parseHost fuel url x).map fun r => r.bind fun (host,x) =>
      (parsePort url x).map fun (port,x) =>
        ⟨scheme,username,password,host,port,parsePath url x⟩

/-- Where the host of a text begins, if its scheme is not empty. -/
def hostStart (url : List T) : Option ℕ :=
  (parseScheme url).map fun p => (parseUserinfo url p.2).2.2

/-- The text between brackets in the place of the host. -/
def bracketed (url : List T) : Option (List T) :=
  match hostStart url with
  | none => none
  | some x =>
    if charAt url x = tchar '[' then
      (find [tchar ']'] url (x+1)).map fun z => substr url (x+1) (z-(x+1))
    else none

/-- The text asks for an address whose scope identifier is never left. -/
def Endless (url : List T) : Prop := ∃ host, bracketed url = some host ∧ Scoped (hostText host)

theorem parseHost_isSome (fuel : ℕ) (url : List T) (x : ℕ) :
    (parseHost fuel url x).isSome ↔ (charAt url x = tchar '[' →
      ∀ z, find [tchar ']'] url (x+1) = some z →
        (fromStringIpv6 fuel (substr url (x+1) (z-(x+1)))).isSome) := by
  unfold parseHost
  split_ifs with h
  · unfold parseIpv6Host
    cases hz : find [tchar ']'] url (x+1) with
    | none => simp
    | some z => simp [h]
  · simp [h, parseNamedHost, fromStringIpv4, inetPtonWide, inetPton]

/-- Only the host can keep the parser from returning. -/
theorem parse_isSome (fuel : ℕ) (url : List T) :
    (parse fuel url).isSome ↔
      ∀ host, bracketed url = some host → (fromStringIpv6 fuel host).isSome := by
  unfold parse bracketed hostStart
  cases parseScheme url with
  | none => simp
  | some p =>
    simp only [Option.isSome_map, Option.map_some]
    rw [parseHost_isSome]
    split_ifs with h
    · simp [h]
    · simp [h]

theorem parse_returns (url : List T) : (∃ fuel, (parse fuel url).isSome) ↔ ¬ Endless url := by
  simp only [parse_isSome, Endless]
  cases hb : bracketed url with
  | none => simp
  | some host =>
    simp only [Option.some.injEq, forall_eq', exists_eq_left']
    exact fromStringIpv6_returns host

end UrlParser

end ProxySwiss
