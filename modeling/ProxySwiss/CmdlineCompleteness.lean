import ProxySwiss.CmdlineParts

/-!
# Command lines that are understood

A command line of the grammar is taken, and each of its arguments leaves what
is written in it, but for the IPv6 address that a tunnel listens on: its octets
are read where they are no more. The variables of the loop are written by every
proxy before they are read, so none of them is carried to the next one.
-/

set_option autoImplicit false

namespace ProxySwiss.CmdlineCompleteness
open Memory Text InetPton UrlParser HostText PortGrammar ConfigFromCmdline CmdlineParts

/-- A host and a port as they are written. -/
structure Target where
  host : Host UInt16
  portText : Wide
  port : UInt16
  port_ok : PortText portText port

def Target.text (x : Target) : Wide := x.host.text ++ tchar ':'::x.portText

/-- Where a connection may be listened for. -/
def Target.IsIp (x : Target) : Prop := ∃ ip, x.host.address = .ipAddr ip

/-- A name has no colon and no `@` in it, and a password has no `@`. -/
structure Entry where
  creds : Option (Wide × Wide)
  target : Target
  creds_ok : ∀ u ∈ creds, tchar ':' ∉ u.1 ∧ tchar '@' ∉ u.1 ∧ tchar '@' ∉ u.2

def credsText : Option (Wide × Wide) → Wide
  | none => []
  | some (uname,pwd) => uname ++ tchar ':'::(pwd ++ [tchar '@'])

def Entry.text (e : Entry) : Wide := tstr "socks5://" ++ (credsText e.creds ++ e.target.text)

def serverTypeText : ServerProxyType → Wide
  | .socks5 => tstr "socks5"
  | .https => tstr "https"

inductive Line where
  | tunnel (tunIn tunOut : Target) (hip : tunIn.IsIp) (chain : List Entry)
  | proxy (type : ServerProxyType) (inProxy : Target) (hip : inProxy.IsIp) (chain : List Entry)

def Line.input : Line → Target
  | .tunnel tunIn _ _ _ => tunIn
  | .proxy _ inProxy _ _ => inProxy

def Line.texts : Line → List Wide
  | .tunnel tunIn tunOut _ chain =>
    tstr "tunnel"::tunIn.text::tunOut.text::chain.map Entry.text
  | .proxy type inProxy _ chain =>
    tstr "proxy"::(serverTypeText type ++ (tstr "://" ++ inProxy.text))::chain.map Entry.text

def Ascii (fv : List Argument) : Prop := ∀ a ∈ fv, ∀ c ∈ a.text, CharT.code c < 128

/-- The destination is the host and the port that were written. -/
def Leads (dst : Destination) (x : Target) : Prop := Names dst x.host ∧ dst.port = x.port

def Listens (ep : Endpoint) (x : Target) : Prop := Leads ⟨[],ep.address,ep.port⟩ x

/-- No credentials are empty credentials. -/
def Logs (creds : Credentials) : Option (Wide × Wide) → Prop
  | none => creds = {}
  | some (uname,pwd) => creds.username.map CharT.code = uname.map CharT.code ∧
      creds.password.map CharT.code = pwd.map CharT.code

structure Stored (e : Entry) (info : ProxyClientInfo) : Prop where
  type : info.proxyClientType = .socks5
  address : Leads info.proxyAddress e.target
  creds : Logs info.proxyCreds e.creds

/-- The proxies come behind those that were there, one for each argument. -/
def Chained (chain : List Entry) (old new : List ProxyClientInfo) : Prop :=
  ∃ infos, new = old ++ infos ∧ List.Forall₂ Stored chain infos

/-- Everything but where connections are listened for. -/
def Filled (old cfg : ProxyswissConfig) : Line → Prop
  | .tunnel _ tunOut _ chain => cfg.input.type = .tunnel ∧ Leads cfg.input.asTunnel tunOut ∧
      Chained chain old.proxyChain cfg.proxyChain
  | .proxy type _ _ chain => cfg.input.type = .proxyServer ∧ cfg.input.asProxyServer = type ∧
      Chained chain old.proxyChain cfg.proxyChain

def Produced (l : Line) (old cfg : ProxyswissConfig) : Prop :=
  Listens cfg.input.listenAddr l.input ∧ Filled old cfg l

/-- The line is taken for what is written in it, whatever is read in place of the
address that is gone. -/
def Understood (l : Line) (fv : List Argument) (cfg : ProxyswissConfig) (errMsg : Wide) : Prop :=
  ∃ N, ∀ stale fuel, N ≤ fuel → ∃ cfg',
    configFromCmdline stale fuel fv cfg errMsg = some ⟨0,cfg',errMsg⟩ ∧ Produced l cfg cfg'

/-- A tunnel that is listened for at this IPv6 address. -/
def TunnelOver : Line → Buffer 16 → Prop
  | .tunnel tunIn _ _ _, a => tunIn.host.address = .ipAddr (.v6 a)
  | .proxy _ _ _ _, _ => False

def TunnelOverIpv6 (l : Line) : Prop := ∃ a, TunnelOver l a

/-- What the parser finds in a target, and in front of it. -/
def Target.parsed (x : Target) (scheme user pwd : Option Wide) : UrlParser UInt16 :=
  ⟨scheme,user,pwd,x.host.address,some x.port,[]⟩

def Entry.parsed (e : Entry) : UrlParser UInt16 :=
  e.target.parsed (some (tstr "socks5")) (e.creds.map Prod.fst) (e.creds.map Prod.snd)

theorem target_at (x : Target) : tchar '@' ∉ x.text := by
  simp only [Target.text, List.mem_append, List.mem_cons, not_or]
  exact ⟨(host_clean x.host).2.1,tchar_ne _ _ (by decide),
    digits_clean x.portText x.port_ok.digit '@' (by decide)⟩

theorem target_scheme (x : Target) : ¬ tstr "://" <:+: x.text := by
  intro h
  have hslash : tchar '/' ∉ x.text := by
    simp only [Target.text, List.mem_append, List.mem_cons, not_or]
    exact ⟨(host_clean x.host).1,tchar_ne _ _ (by decide),
      digits_clean x.portText x.port_ok.digit '/' (by decide)⟩
  exact hslash (h.subset (by simp [tstr, ascii, strToTstr, tchar]))

/-- A target is read to its end, whatever stands in front of it. -/
theorem target_parsed (x : Target) (text s : Wide) (scheme user pwd : Option Wide)
    (hs : schemePart text = some (scheme,s)) (hu : userinfoPart s = (user,pwd,x.text)) :
    ∃ N, ∀ fuel, N ≤ fuel → parse fuel text = some (some (x.parsed scheme user pwd)) := by
  have hport := port_taken x.portText [] x.port x.port_ok (.inl rfl)
  rw [List.append_nil] at hport
  exact written_parsed text s _ [] scheme user pwd x.host _ hs hu (.inr (.inl ⟨_,rfl⟩)) hport

theorem plain_parsed (x : Target) : ∃ N, ∀ fuel, N ≤ fuel →
    parse fuel x.text = some (some (x.parsed none none none)) :=
  target_parsed x x.text x.text none none none (scheme_absent _ (target_scheme x))
    (userinfo_absent _ (target_at x))

theorem server_parsed (type : ServerProxyType) (x : Target) : ∃ N, ∀ fuel, N ≤ fuel →
    parse fuel (serverTypeText type ++ (tstr "://" ++ x.text)) =
      some (some (x.parsed (some (serverTypeText type)) none none)) := by
  refine target_parsed x _ x.text _ none none ?_ (userinfo_absent _ (target_at x))
  exact scheme_written _ _ (by cases type <;> decide) (by cases type <;> decide)

theorem creds_read (e : Entry) : userinfoPart (credsText e.creds ++ e.target.text) =
    (e.creds.map Prod.fst,e.creds.map Prod.snd,e.target.text) := by
  have hne : (tchar '@' : UInt16) ≠ tchar ':' := tchar_ne _ _ (by decide)
  cases hc : e.creds with
  | none => exact userinfo_absent _ (target_at e.target)
  | some u =>
    obtain ⟨uname,pwd⟩ := u
    obtain ⟨hcolon,hat,hpwd⟩ := e.creds_ok _ hc
    have hsplit : credsText (some (uname,pwd)) ++ e.target.text =
        (uname ++ tchar ':'::pwd) ++ tchar '@'::e.target.text := by simp [credsText]
    rw [hsplit, userinfo_written _ _ (by simp [hat, hpwd, hne]), before_append _ uname _ hcolon,
      behind_append _ uname _ hcolon, if_pos (by simp)]
    simp

theorem entry_parsed (e : Entry) : ∃ N, ∀ fuel, N ≤ fuel →
    parse fuel e.text = some (some e.parsed) := by
  refine target_parsed e.target _ (credsText e.creds ++ e.target.text) _ _ _ ?_ (creds_read e)
  exact scheme_written (tstr "socks5") _ (by decide) (by decide)

/-- So many rounds are enough for every proxy of a chain. -/
theorem chain_parsed (chain : List Entry) : ∃ N, ∀ fuel, N ≤ fuel → ∀ e ∈ chain,
    parse fuel e.text = some (some e.parsed) := by
  induction chain with
  | nil => exact ⟨0,by simp⟩
  | cons e chain ih =>
    obtain ⟨N,hN⟩ := ih
    obtain ⟨M,hM⟩ := entry_parsed e
    refine ⟨max N M,fun fuel hfuel x hx => ?_⟩
    rcases List.mem_cons.mp hx with rfl | hx
    · exact hM fuel (by omega)
    · exact hN fuel (by omega) x hx

theorem creds_logged (creds : Option (Wide × Wide))
    (hn : ∀ u ∈ creds, Narrow u.1 ∧ Narrow u.2) :
    Logs (credentialsFrom (creds.map Prod.fst) (creds.map Prod.snd)) creds := by
  cases creds with
  | none => rfl
  | some u =>
    obtain ⟨h1,h2⟩ := hn u rfl
    exact ⟨(narrow_codes u.1).mpr h1,(narrow_codes u.2).mpr h2⟩

theorem target_leads (x : Target) (dst : Destination) (hn : Narrow x.text) :
    Leads (destinationFromHost dst x.host.address x.port).1 x :=
  ⟨names_written x.host dst x.port fun c hc => hn c (by simp [Target.text, hc]),
    destination_port dst _ _⟩

/-- What one proxy leaves in the variables of the loop does not depend on what
was there. -/
theorem entry_info (fuel : ℕ) (e : Entry) (l : Locals)
    (h : parse fuel e.text = some (some e.parsed)) (hn : Narrow e.text) :
    ∃ info, proxyInfoFromString fuel e.text l.host (some l.proxyTypeStr) (some l.creds) =
        some (.ok info) ∧ (l.assign info).proxyTypeStr = tstr "socks5" ∧
      Stored e ⟨.socks5,(l.assign info).host,(l.assign info).creds⟩ := by
  refine ⟨_,(info_ok _ _ _ _ _ _).mpr ⟨_,e.target.port,h,rfl,?_,by simp,rfl,rfl⟩,rfl,rfl,?_,?_⟩
  · simp [Entry.parsed, Target.parsed]
  · exact target_leads e.target l.host fun c hc => hn c (by simp [Entry.text, hc])
  · refine creds_logged e.creds fun u hu => ⟨fun c hc => hn c ?_,fun c hc => hn c ?_⟩
    · rw [Entry.text, hu]
      simp [credsText, hc]
    · rw [Entry.text, hu]
      simp [credsText, hc]

/-- The loop, by induction on the arguments that remain. -/
theorem chain_taken (fuel i : ℕ) (chain : List Entry) (fv : List Argument) (l : Locals)
    (cfg : ProxyswissConfig) (errMsg : Wide) (hfv : fv.map Argument.text = chain.map Entry.text)
    (hparse : ∀ e ∈ chain, parse fuel e.text = some (some e.parsed))
    (hn : ∀ a ∈ fv, Narrow a.text) :
    ∃ cfg', proxyChainFrom fuel i fv l cfg errMsg = some ⟨0,cfg',errMsg⟩ ∧
      cfg'.input = cfg.input ∧ Chained chain cfg.proxyChain cfg'.proxyChain := by
  induction chain generalizing i fv l cfg with
  | nil =>
    obtain rfl := List.map_eq_nil_iff.mp hfv
    exact ⟨cfg,rfl,rfl,[],by simp,.nil⟩
  | cons e chain ih =>
    obtain ⟨a,fv,rfl,ha,hrest⟩ := List.map_eq_cons_iff.mp hfv
    obtain ⟨info,hinfo,htype,hstored⟩ := entry_info fuel e l (hparse e (by simp))
      (ha ▸ hn a (by simp))
    obtain ⟨cfg',hcfg,hinput,infos,hchain,hall⟩ := ih (i+1) fv (l.assign info)
      { cfg with proxyChain := cfg.proxyChain ++ [⟨.socks5,(l.assign info).host,
        (l.assign info).creds⟩] } hrest (fun x hx => hparse x (by simp [hx]))
      fun x hx => hn x (by simp [hx])
    refine ⟨cfg',?_,hinput,_::infos,by simpa using hchain,.cons hstored hall⟩
    rw [proxyChainFrom, ha, hinfo, Option.bind_some]
    simp only [htype]
    exact hcfg

theorem ip_listens (x : Target) (ip : IpAddress) (h : x.host.address = .ipAddr ip) :
    Listens ⟨addressOf ip,x.port⟩ x := by
  refine ⟨?_,rfl⟩
  cases hh : x.host with
  | dotted text a b c d hd =>
    obtain rfl : IpAddress.v4 (ofLe32 a b c d) = ip := by simpa [hh, Host.address] using h
    exact ⟨rfl,congrArg Address.v4 (htonl_ofLe32 a b c d)⟩
  | ipv6 text a hd =>
    obtain rfl : IpAddress.v6 a = ip := by simpa [hh, Host.address] using h
    exact ⟨rfl,rfl⟩
  | name text hd other => simp [hh, Host.address] at h

theorem listened_address (x : Target) (a b : Buffer 16) (port : UInt16)
    (h : x.host.address = .ipAddr (.v6 a)) (hl : Listens ⟨.v6 b,port⟩ x) : b = a := by
  have hn := hl.1
  cases hh : x.host with
  | dotted text p q r s hd => simp [hh, Host.address] at h
  | ipv6 text c hd =>
    obtain rfl : c = a := by simpa [hh, Host.address] using h
    rw [hh] at hn
    exact Address.v6.inj hn.2
  | name text hd other => simp [hh, Host.address] at h

/-- What a line leaves, and where the octets of an IPv6 address come from. -/
structure Left (stale : Buffer 16 → Buffer 16) (l : Line) (old cfg : ProxyswissConfig) : Prop where
  filled : Filled old cfg l
  listens : ¬ TunnelOverIpv6 l → Listens cfg.input.listenAddr l.input
  gone : ∀ a, TunnelOver l a → ∃ port, cfg.input.listenAddr = ⟨.v6 (stale a),port⟩

theorem tunnel_taken (stale : Buffer 16 → Buffer 16) (fuel : ℕ) (tunIn tunOut : Target)
    (hip : tunIn.IsIp) (chain : List Entry) (a b : Argument) (fv : List Argument)
    (cfg : ProxyswissConfig) (errMsg : Wide) (ha : a.text = tunIn.text) (hb : b.text = tunOut.text)
    (hfv : fv.map Argument.text = chain.map Entry.text)
    (hin : parse fuel tunIn.text = some (some (tunIn.parsed none none none)))
    (hout : parse fuel tunOut.text = some (some (tunOut.parsed none none none)))
    (hparse : ∀ e ∈ chain, parse fuel e.text = some (some e.parsed))
    (hb' : Narrow b.text) (hn : ∀ x ∈ fv, Narrow x.text) :
    ∃ cfg', tunnelFrom stale fuel a b fv cfg errMsg = some ⟨0,cfg',errMsg⟩ ∧
      Left stale (.tunnel tunIn tunOut hip chain) cfg cfg' := by
  obtain ⟨ip,haddr⟩ := id hip
  have hep := (endpoint_ok stale fuel a.text ⟨listenAddress stale ip,tunIn.port⟩).mpr
    ⟨_,tunIn.port,ip,ha ▸ hin,rfl,rfl,rfl,rfl,rfl,haddr,rfl⟩
  have hinfo := fun dst => (info_ok fuel b.text dst none none _).mpr
    ⟨_,tunOut.port,hb ▸ hout,rfl,iff_of_true rfl rfl,fun _ => ⟨rfl,rfl⟩,rfl,rfl⟩
  have hlead := fun dst => target_leads tunOut dst (hb ▸ hb')
  obtain ⟨cfg',hcfg,hinput,hchain⟩ := chain_taken fuel 3 chain fv {} { cfg with input :=
    ⟨.tunnel,⟨listenAddress stale ip,tunIn.port⟩,(destinationFromHost cfg.input.asTunnel
      tunOut.host.address tunOut.port).1,cfg.input.asProxyServer⟩ } errMsg hfv hparse hn
  refine ⟨cfg',?_,?_,?_,?_⟩
  · simp only [tunnelFrom, hep, hinfo, Option.bind_some]
    exact hcfg
  · rw [Filled, hinput]
    exact ⟨rfl,hlead _,hchain⟩
  · intro hno
    rw [hinput]
    cases ip with
    | v4 addr => exact ip_listens tunIn (.v4 addr) haddr
    | v6 bytes => exact absurd ⟨bytes,haddr⟩ hno
  · intro c hc
    obtain rfl : ip = .v6 c := HostAddress.ipAddr.inj (haddr.symm.trans hc)
    exact ⟨tunIn.port,by rw [hinput]; rfl⟩

theorem proxy_taken (stale : Buffer 16 → Buffer 16) (fuel : ℕ) (type : ServerProxyType)
    (inProxy : Target) (hip : inProxy.IsIp) (chain : List Entry) (a : Argument)
    (fv : List Argument) (cfg : ProxyswissConfig) (errMsg : Wide)
    (ha : a.text = serverTypeText type ++ (tstr "://" ++ inProxy.text))
    (hfv : fv.map Argument.text = chain.map Entry.text)
    (hin : parse fuel (serverTypeText type ++ (tstr "://" ++ inProxy.text)) =
      some (some (inProxy.parsed (some (serverTypeText type)) none none)))
    (hparse : ∀ e ∈ chain, parse fuel e.text = some (some e.parsed))
    (hn : ∀ x ∈ fv, Narrow x.text) :
    ∃ cfg', proxyFrom fuel a fv cfg errMsg = some ⟨0,cfg',errMsg⟩ ∧
      Left stale (.proxy type inProxy hip chain) cfg cfg' := by
  obtain ⟨ip,haddr⟩ := id hip
  have hinfo := (info_ok fuel a.text {} (some []) none _).mpr
    ⟨_,inProxy.port,ha ▸ hin,rfl,by simp [Target.parsed],fun _ => ⟨rfl,rfl⟩,rfl,rfl⟩
  simp only [Target.parsed, haddr, destination_ip] at hinfo
  have htype : serverSessionTypeFromString (serverTypeText type) = some type := by
    cases type <;> decide
  obtain ⟨cfg',hcfg,hinput,hchain⟩ := chain_taken fuel 2 chain fv
    ⟨⟨[],addressOf ip,inProxy.port⟩,{},serverTypeText type⟩ { cfg with input :=
      ⟨.proxyServer,⟨addressOf ip,inProxy.port⟩,cfg.input.asTunnel,type⟩ } errMsg hfv hparse hn
  refine ⟨cfg',?_,?_,fun _ => ?_,fun c hc => hc.elim⟩
  · rw [proxyFrom, hinfo, Option.bind_some]
    simp only [Locals.assign, Option.getD_some, htype]
    exact hcfg
  · rw [Filled, hinput]
    exact ⟨rfl,rfl,hchain⟩
  · rw [hinput]
    exact ip_listens inProxy ip haddr

section Lines

variable (l : Line) (fv : List Argument) (hfv : fv.map Argument.text = l.texts)
  (hn : ∀ a ∈ fv, Narrow a.text) (cfg : ProxyswissConfig) (errMsg : Wide)

include hfv hn

/-- Every command line of the grammar is taken. -/
theorem line_taken : ∃ N, ∀ stale fuel, N ≤ fuel → ∃ cfg',
    configFromCmdline stale fuel fv cfg errMsg = some ⟨0,cfg',errMsg⟩ ∧ Left stale l cfg cfg' := by
  cases l with
  | tunnel tunIn tunOut hip chain =>
    obtain ⟨t,fv,rfl,ht,hfv⟩ := List.map_eq_cons_iff.mp hfv
    obtain ⟨a,fv,rfl,ha,hfv⟩ := List.map_eq_cons_iff.mp hfv
    obtain ⟨b,fv,rfl,hb,hfv⟩ := List.map_eq_cons_iff.mp hfv
    obtain ⟨L,hL⟩ := plain_parsed tunIn
    obtain ⟨M,hM⟩ := plain_parsed tunOut
    obtain ⟨N,hN⟩ := chain_parsed chain
    refine ⟨max L (max M N),fun stale fuel hfuel => ?_⟩
    rw [tunnel_from stale fuel t a b fv cfg errMsg ht]
    exact tunnel_taken stale fuel tunIn tunOut hip chain a b fv cfg errMsg ha hb hfv
      (hL fuel (by omega)) (hM fuel (by omega)) (hN fuel (by omega)) (hn b (by simp))
      fun x hx => hn x (by simp [hx])
  | proxy type inProxy hip chain =>
    obtain ⟨t,fv,rfl,ht,hfv⟩ := List.map_eq_cons_iff.mp hfv
    obtain ⟨a,fv,rfl,ha,hfv⟩ := List.map_eq_cons_iff.mp hfv
    obtain ⟨M,hM⟩ := server_parsed type inProxy
    obtain ⟨N,hN⟩ := chain_parsed chain
    refine ⟨max M N,fun stale fuel hfuel => ?_⟩
    rw [proxy_from stale fuel t a fv cfg errMsg ht]
    exact proxy_taken stale fuel type inProxy hip chain a fv cfg errMsg ha hfv
      (hM fuel (by omega)) (hN fuel (by omega)) fun x hx => hn x (by simp [hx])

/-- Other octets than those that were written are read. -/
theorem ipv6_misread (a : Buffer 16) (ha : TunnelOver l a) : ¬ Understood l fv cfg errMsg := by
  rintro ⟨N,hN⟩
  obtain ⟨M,hM⟩ := line_taken l fv hfv hn cfg errMsg
  obtain ⟨cfg',hcfg,hlistens,-⟩ := hN overwritten (max M N) (le_max_right M N)
  obtain ⟨cfg'',hcfg',hleft⟩ := hM overwritten (max M N) (le_max_left M N)
  obtain rfl : cfg' = cfg'' := congrArg Result.cfg (Option.some.inj (hcfg.symm.trans hcfg'))
  obtain ⟨port,hport⟩ := hleft.gone a ha
  rw [hport] at hlistens
  cases l with
  | tunnel tunIn tunOut hip chain =>
    exact overwritten_ne a (listened_address tunIn a _ port ha hlistens)
  | proxy type inProxy hip chain => exact ha

end Lines

theorem ascii_narrow (fv : List Argument) (h : Ascii fv) : ∀ a ∈ fv, Narrow a.text :=
  fun a ha c hc => Nat.lt_trans (h a ha c hc) (by decide)

/-- Every command line of the grammar is taken with what is written in it, except
a tunnel that is listened for at an IPv6 address. -/
theorem cmdline_completeness (l : Line) (fv : List Argument)
    (hfv : fv.map Argument.text = l.texts) (hascii : Ascii fv) (cfg : ProxyswissConfig)
    (errMsg : Wide) : Understood l fv cfg errMsg ↔ ¬ TunnelOverIpv6 l := by
  have hn := ascii_narrow fv hascii
  constructor
  · rintro h ⟨a,ha⟩
    exact ipv6_misread l fv hfv hn cfg errMsg a ha h
  · intro hno
    obtain ⟨N,hN⟩ := line_taken l fv hfv hn cfg errMsg
    refine ⟨N,fun stale fuel hfuel => ?_⟩
    obtain ⟨cfg',hcfg,hleft⟩ := hN stale fuel hfuel
    exact ⟨cfg',hcfg,hleft.listens hno,hleft.filled⟩

theorem ascii_all (fv : List Argument)
    (h : fv.all (fun a => a.text.all fun c => decide (CharT.code c < 128)) = true) : Ascii fv := by
  simpa [Ascii] using h

def plainName : Target where
  host := .name (tstr "h") ⟨by decide,by decide,by decide,by decide,by decide⟩ rfl
  portText := tstr "80"
  port := 80
  port_ok := ⟨by decide,digits_all _ rfl,rfl⟩

theorem plainIp_dotted : Ipv4Literal.Dotted (tstr "1.2.3.4" : Wide) 1 2 3 4 :=
  ⟨tstr "1",tstr "2",tstr "3",tstr "4",rfl,⟨by decide,digits_all _ rfl,rfl⟩,
    ⟨by decide,digits_all _ rfl,rfl⟩,⟨by decide,digits_all _ rfl,rfl⟩,
    ⟨by decide,digits_all _ rfl,rfl⟩⟩

def plainIp : Target where
  host := .dotted (tstr "1.2.3.4") 1 2 3 4 plainIp_dotted
  portText := tstr "5500"
  port := 5500
  port_ok := ⟨by decide,digits_all _ rfl,rfl⟩

def plainIpv6 : Target where
  host := .ofIpv6 ((default : Buffer 16).fillAt 15 [1])
  portText := tstr "1"
  port := 1
  port_ok := ⟨by decide,digits_all _ rfl,rfl⟩

/-- A tunnel through two proxies, of which the second has no credentials. -/
def plainLine : Line :=
  .tunnel plainIp plainName ⟨_,rfl⟩
    [⟨some (tstr "a",tstr "b"),plainName,by rintro u ⟨⟩; decide⟩,⟨none,plainIpv6,by simp⟩]

def plainArguments : List Argument :=
  [⟨tstr "tunnel",by decide⟩,⟨tstr "1.2.3.4:5500",by decide⟩,⟨tstr "h:80",by decide⟩,
    ⟨tstr "socks5://a:b@h:80",by decide⟩,⟨tstr "socks5://[::1]:1",by decide⟩]

def emptyConfig : ProxyswissConfig := { input := { type := .tunnel, asProxyServer := .socks5 } }

theorem cmdline_completeness_tunnel : Understood plainLine plainArguments emptyConfig [] := by
  refine (cmdline_completeness plainLine plainArguments rfl (ascii_all _ rfl) emptyConfig []).mpr ?_
  rintro ⟨a,ha⟩
  exact absurd (HostAddress.ipAddr.inj ha) (by simp)

/-- A tunnel that is listened for at the loopback address of the longer family. -/
def ipv6Line : Line := .tunnel plainIpv6 plainName ⟨_,rfl⟩ []

def ipv6Arguments : List Argument :=
  [⟨tstr "tunnel",by decide⟩,⟨tstr "[::1]:1",by decide⟩,⟨tstr "h:80",by decide⟩]

theorem listen_address_gone : ipv6Arguments.map Argument.text = ipv6Line.texts ∧
    Ascii ipv6Arguments ∧ ¬ Understood ipv6Line ipv6Arguments emptyConfig [] :=
  ⟨rfl,ascii_all _ rfl,ipv6_misread ipv6Line ipv6Arguments rfl
    (ascii_narrow _ (ascii_all _ rfl)) emptyConfig [] _ rfl⟩

end ProxySwiss.CmdlineCompleteness
