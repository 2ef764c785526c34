import ProxySwiss.CmdlineFaithfulness
import ProxySwiss.PrintedDestination

/-!
# The printed configuration

When it starts the program prints its configuration. The hosts, the types and
the proxies that are printed make a command line again, and that command line
stands for the same configuration unless an address has colons in it: it is
printed without the brackets that it was written with.
-/

set_option autoImplicit false

namespace ProxySwiss.PrintConfig
open Memory Text InetPton UrlParser Ipv4Literal HostText PortGrammar ConfigFromCmdline
open CmdlineParts CmdlineCompleteness HostConversions PrintedDestination

def serverSessionTypeToString : ServerProxyType → Wide
  | .socks5 => tstr "socks5"
  | .https => tstr "https"

def clientSessionTypeToString : ClientProxyType → Wide
  | .socks5 => tstr "socks5"

theorem later {x y : Wide} (a : Wide) (h : x <:+: y) : x <:+: a ++ y :=
  h.trans (List.suffix_append a y).isInfix

section Print

variable (addressText : Address → Bytes)

def printedEndpoint (ep : Endpoint) : Wide :=
  strToTstr (addressText ep.address) ++ tchar ':'::strToTstr (strFromUint ep.port.toNat)

def printedProxy (pci : ProxyClientInfo) : Wide :=
  clientSessionTypeToString pci.proxyClientType ++ (tstr "://" ++
    if pci.proxyCreds.empty then toWstring addressText pci.proxyAddress
    else strToTstr pci.proxyCreds.username ++ tchar ':'::(strToTstr pci.proxyCreds.password ++
      tchar '@'::toWstring addressText pci.proxyAddress))

/-- What the input does with a connection. -/
def printedType (input : InputT) : Wide :=
  match input.type with
  | .tunnel => toWstring addressText input.asTunnel
  | .proxyServer => serverSessionTypeToString input.asProxyServer

def typeText : InputType → Wide
  | .tunnel => tstr " Type: Tunnel to "
  | .proxyServer => tstr " Type: ProxyServer "

/-- The proxies from the one with the number `i` on. -/
def printChain : ℕ → List ProxyClientInfo → Wide
  | _, [] => []
  | i, pci::chain => tstr " #" ++ (strToTstr (strFromUint i) ++ (tstr ". " ++
      (printedProxy addressText pci ++ (tstr "\n" ++ printChain (i+1) chain))))

def printOutput : List ProxyClientInfo → Wide
  | [] => tstr "Output proxy chain is empty.\n"
  | chain => tstr "Output proxy chain:\n" ++ printChain addressText 0 chain

def printConfig (cfg : ProxyswissConfig) : Wide :=
  tstr "Input:\n" ++ (tstr " Listen address: " ++
    (printedEndpoint addressText cfg.input.listenAddr ++ (tstr "\n" ++
      (typeText cfg.input.type ++ (printedType addressText cfg.input ++ (tstr "\n" ++
        printOutput addressText cfg.proxyChain))))))

/-! The parts of the printed text, and the command line that they make. -/

def proxies (cfg : ProxyswissConfig) : List Wide := cfg.proxyChain.map (printedProxy addressText)

def arguments (cfg : ProxyswissConfig) : List Wide :=
  let ep := printedEndpoint addressText cfg.input.listenAddr
  let type := printedType addressText cfg.input
  match cfg.input.type with
  | .tunnel => tstr "tunnel"::ep::type::proxies addressText cfg
  | .proxyServer => tstr "proxy"::(type ++ (tstr "://" ++ ep))::proxies addressText cfg

theorem chain_printed (i : ℕ) (chain : List ProxyClientInfo) :
    ∀ pci ∈ chain, printedProxy addressText pci <:+: printChain addressText i chain := by
  induction chain generalizing i with
  | nil => exact fun pci h => absurd h List.not_mem_nil
  | cons x chain ih =>
    intro pci hpci
    refine later _ (later _ (later _ ?_))
    rcases List.mem_cons.mp hpci with rfl | hpci
    · exact (List.prefix_append _ _).isInfix
    · exact later _ (later _ (ih (i+1) pci hpci))

/-- The parts of the command line stand in the text. -/
structure Printed (cfg : ProxyswissConfig) (text : Wide) : Prop where
  endpoint : printedEndpoint addressText cfg.input.listenAddr <:+: text
  type : printedType addressText cfg.input <:+: text
  chain : ∀ x ∈ proxies addressText cfg, x <:+: text

theorem config_printed (cfg : ProxyswissConfig) :
    Printed addressText cfg (printConfig addressText cfg) := by
  refine ⟨later _ (later _ (List.prefix_append _ _).isInfix),
    later _ (later _ (later _ (later _ (later _ (List.prefix_append _ _).isInfix)))),?_⟩
  intro x hx
  obtain ⟨pci,hpci,rfl⟩ := List.mem_map.mp hx
  refine later _ (later _ (later _ (later _ (later _ (later _ (later _ ?_))))))
  cases hc : cfg.proxyChain with
  | nil => exact absurd (hc ▸ hpci) List.not_mem_nil
  | cons y chain => exact later _ (chain_printed addressText 0 _ pci (hc ▸ hpci))

end Print

/-! What may be printed, and what it is read as. -/

/-- A name that a colon or an `@` does not end, and a password without `@`. -/
structure PrintableCreds (creds : Credentials) : Prop where
  username : ∀ c ∈ creds.username, c ≠ 0x3a ∧ c ≠ 0x40
  password : ∀ c ∈ creds.password, c ≠ 0x40

structure PrintableConfig (cfg : ProxyswissConfig) : Prop where
  tunnel : cfg.input.type = .tunnel → Printable cfg.input.asTunnel
  chain : ∀ pci ∈ cfg.proxyChain, Printable pci.proxyAddress ∧ PrintableCreds pci.proxyCreds

/-- The text of the destination has one colon, in front of the port. -/
def OneColon (dst : Destination) : Prop := dst.hostname ≠ [] ∨ ∃ n, dst.ipAddress = .v4 n

structure OneColonEach (cfg : ProxyswissConfig) : Prop where
  endpoint : ∃ n, cfg.input.listenAddr.address = .v4 n
  tunnel : cfg.input.type = .tunnel → OneColon cfg.input.asTunnel
  chain : ∀ pci ∈ cfg.proxyChain, OneColon pci.proxyAddress

structure SameProxy (a b : ProxyClientInfo) : Prop where
  type : a.proxyClientType = b.proxyClientType
  address : Same a.proxyAddress b.proxyAddress
  creds : a.proxyCreds = b.proxyCreds

/-- Only the record of the type that is used counts. -/
structure SameConfig (a b : ProxyswissConfig) : Prop where
  type : a.input.type = b.input.type
  endpoint : a.input.listenAddr = b.input.listenAddr
  tunnel : b.input.type = .tunnel → Same a.input.asTunnel b.input.asTunnel
  server : b.input.type = .proxyServer → a.input.asProxyServer = b.input.asProxyServer
  chain : List.Forall₂ SameProxy a.proxyChain b.proxyChain

section Read

variable (addressText : Address → Bytes) (hstd : StandardText addressText)

include hstd

theorem ip_target (n : UInt32) (port : UInt16) : ∃ x : Target,
    x.text = printedEndpoint addressText ⟨.v4 n,port⟩ ∧ x.port = port ∧
      ∃ ip, x.host.address = .ipAddr ip ∧ addressOf ip = .v4 n := by
  have hwide := IpText.dotted_wide (T := UInt16) _ _ _ _ _ (hstd.v4 n)
  exact ⟨⟨.dotted _ _ _ _ _ hwide,strToTstr (strFromUint port.toNat),port,port_read port⟩,rfl,rfl,
    _,rfl,congrArg Address.v4 ((htonl_ofLe32 _ _ _ _).trans (ofLe32_byte32 n))⟩

omit hstd in
theorem name_target (dst : Destination) (hd : Printable dst) (hne : dst.hostname ≠ []) :
    ∃ x : Target, x.text = toWstring addressText dst ∧ x.port = dst.port ∧
      x.host.address = .hostname dst.hostname := by
  have huse : dst.usingHostname = true := by simpa [Destination.usingHostname] using hne
  have hhost : printedHost addressText dst = dst.hostname := if_pos huse
  have hother : fromStringIpv4 0 (strToTstr dst.hostname : Wide) = some none := by
    have hnarrow := hd.other hne
    have hid : dst.hostname.map CharT.toChar = dst.hostname := List.map_id'' (fun _ => rfl) _
    rw [fromStringIpv4_eq, InetPton.hostText, hid] at hnarrow
    rwa [fromStringIpv4_eq, hostText_strToTstr]
  refine ⟨⟨.name _ (name_plain _ hne hd.clean) hother,strToTstr (strFromUint dst.port.toNat),
    dst.port,port_read dst.port⟩,?_,rfl,?_⟩
  · rw [toWstring_text addressText dst (hhost ▸ hd.short) (hhost ▸ hd.ascii), hhost]
    rfl
  · refine congrArg HostAddress.hostname ?_
    rw [strToTstr, List.map_map]
    exact List.map_id'' CharT.toChar_ofChar _

/-- What is printed for a destination is what is written for some target. -/
theorem printed_target (dst : Destination) (hd : Printable dst) (h : OneColon dst) :
    ∃ x : Target, x.text = toWstring addressText dst ∧
      ∀ old, Same (destinationFromHost old x.host.address x.port).1 dst := by
  by_cases hne : dst.hostname = []
  · obtain ⟨n,hip⟩ := h.resolve_left (not_not.mpr hne)
    obtain ⟨x,htext,hport,ip,haddr,hn⟩ := ip_target addressText hstd n dst.port
    have hhost : printedHost addressText dst = addressText (.v4 n) := by
      rw [printedHost, if_neg (by simp [Destination.usingHostname, hne]), hip]
    refine ⟨x,htext.trans ?_,fun old => ?_⟩
    · rw [toWstring_text addressText dst (hhost ▸ address_fits addressText hstd _ _)
        (hhost ▸ dotted_ascii _ _ _ _ _ (hstd.v4 n)), hhost]
      rfl
    · rw [haddr, destination_ip, hn]
      exact ⟨hne.symm,fun _ => hip.symm,hport⟩
  · obtain ⟨x,htext,hport,haddr⟩ := name_target addressText dst hd hne
    refine ⟨x,htext,fun old => ?_⟩
    rw [haddr, hport]
    refine ⟨rfl,fun hunused => absurd hunused ?_,rfl⟩
    simpa [destinationFromHost, Destination.usingHostname] using hne

/-- The entry is what is printed for the proxy. -/
structure Writes (e : Entry) (pci : ProxyClientInfo) : Prop where
  text : e.text = printedProxy addressText pci
  address : ∀ old, Same (destinationFromHost old e.target.host.address e.target.port).1
    pci.proxyAddress
  creds : credentialsFrom (e.creds.map Prod.fst) (e.creds.map Prod.snd) = pci.proxyCreds

theorem printed_entry (pci : ProxyClientInfo) (hd : Printable pci.proxyAddress)
    (hc : PrintableCreds pci.proxyCreds) (h : OneColon pci.proxyAddress) :
    ∃ e, Writes addressText e pci := by
  obtain ⟨x,htext,hsame⟩ := printed_target addressText hstd pci.proxyAddress hd h
  have htype : clientSessionTypeToString pci.proxyClientType = tstr "socks5" := by
    cases pci.proxyClientType
    rfl
  have hback : ∀ s : Bytes, wstrToStr (strToTstr s) = s := fun s => by
    rw [wstrToStr, strToTstr, List.map_map]
    exact List.map_id'' wcharToChar_charToWchar s
  have hscheme : (tstr "socks5://" : Wide) = tstr "socks5" ++ tstr "://" := rfl
  by_cases he : pci.proxyCreds.empty = true
  · refine ⟨⟨none,x,by simp⟩,?_,hsame,?_⟩
    · rw [printedProxy, htype, if_pos he, Entry.text, htext]
      rfl
    · simp only [Credentials.empty, Bool.and_eq_true, List.isEmpty_iff] at he
      exact (congr (congrArg Credentials.mk he.1) he.2).symm
  · refine ⟨⟨some (strToTstr pci.proxyCreds.username,strToTstr pci.proxyCreds.password),x,?_⟩,
      ?_,hsame,?_⟩
    · intro u hu
      obtain rfl := Option.some.inj hu
      exact ⟨text_clean _ ':' fun c hx => (hc.username c hx).1,
        text_clean _ '@' fun c hx => (hc.username c hx).2,text_clean _ '@' hc.password⟩
    · rw [printedProxy, htype, if_neg he, Entry.text, htext]
      simp [credsText, hscheme]
    · simp [credentialsFrom, hback]

end Read

theorem entry_read (addressText : Address → Bytes) (fuel : ℕ) (e : Entry) (pci : ProxyClientInfo)
    (l : Locals) (hw : Writes addressText e pci)
    (h : parse fuel e.text = some (some e.parsed)) : ∃ info,
      proxyInfoFromString fuel e.text l.host (some l.proxyTypeStr) (some l.creds) =
          some (.ok info) ∧
        (l.assign info).proxyTypeStr = tstr "socks5" ∧
        SameProxy ⟨.socks5,(l.assign info).host,(l.assign info).creds⟩ pci := by
  refine ⟨_,(info_ok _ _ _ _ _ _).mpr ⟨_,e.target.port,h,rfl,?_,by simp,rfl,rfl⟩,rfl,?_,
    hw.address l.host,hw.creds⟩
  · simp [Entry.parsed, Target.parsed]
  · cases pci.proxyClientType
    rfl

/-- The loop reads the proxies one after the other. -/
theorem chain_read (addressText : Address → Bytes) (fuel i : ℕ) (es : List Entry)
    (chain : List ProxyClientInfo) (fv : List Argument) (l : Locals) (cfg : ProxyswissConfig)
    (errMsg : Wide) (hw : List.Forall₂ (Writes addressText) es chain)
    (hfv : fv.map Argument.text = chain.map (printedProxy addressText))
    (hparse : ∀ e ∈ es, parse fuel e.text = some (some e.parsed)) :
    ∃ infos, List.Forall₂ SameProxy infos chain ∧ proxyChainFrom fuel i fv l cfg errMsg =
      some ⟨0,{ cfg with proxyChain := cfg.proxyChain ++ infos },errMsg⟩ := by
  induction hw generalizing i fv l cfg with
  | nil =>
    obtain rfl := List.map_eq_nil_iff.mp hfv
    exact ⟨[],.nil,by rw [List.append_nil]; rfl⟩
  | @cons e pci es chain hw _ ih =>
    obtain ⟨a,fv,rfl,ha,hrest⟩ := List.map_eq_cons_iff.mp hfv
    obtain ⟨info,hinfo,htype,hsame⟩ := entry_read addressText fuel e pci l hw
      (hparse e (List.mem_cons_self ..))
    obtain ⟨infos,hall,hr⟩ := ih (i+1) fv (l.assign info) { cfg with proxyChain :=
      cfg.proxyChain ++ [⟨.socks5,(l.assign info).host,(l.assign info).creds⟩] } hrest
      fun x hx => hparse x (List.mem_cons_of_mem _ hx)
    refine ⟨_::infos,.cons hsame hall,?_⟩
    rw [proxyChainFrom, ha, ← hw.text, hinfo, Option.bind_some]
    simp only [htype]
    rw [List.append_assoc] at hr
    exact hr

theorem type_text (type : ServerProxyType) :
    serverSessionTypeToString type = serverTypeText type := by
  cases type <;> rfl

theorem server_type (type : ServerProxyType) :
    serverSessionTypeFromString (serverTypeText type) = some type := by
  cases type <;> decide

section Lines

variable (addressText : Address → Bytes) (hstd : StandardText addressText)

include hstd

theorem printed_entries (chain : List ProxyClientInfo)
    (h : ∀ pci ∈ chain, Printable pci.proxyAddress ∧ PrintableCreds pci.proxyCreds)
    (hone : ∀ pci ∈ chain, OneColon pci.proxyAddress) :
    ∃ es, List.Forall₂ (Writes addressText) es chain := by
  induction chain with
  | nil => exact ⟨[],.nil⟩
  | cons pci chain ih =>
    obtain ⟨hd,hc⟩ := h pci (List.mem_cons_self ..)
    obtain ⟨e,he⟩ := printed_entry addressText hstd pci hd hc (hone pci (List.mem_cons_self ..))
    obtain ⟨es,hes⟩ := ih (fun x hx => h x (List.mem_cons_of_mem _ hx))
      fun x hx => hone x (List.mem_cons_of_mem _ hx)
    exact ⟨e::es,.cons he hes⟩

/-- The command line is taken for a configuration like `cfg`, whatever is read in
place of an address that is gone. -/
def ReadsBack (cfg : ProxyswissConfig) (fv : List Argument) (old : ProxyswissConfig)
    (errMsg : Wide) : Prop :=
  ∃ N, ∀ stale fuel, N ≤ fuel → ∃ cfg',
    configFromCmdline stale fuel fv old errMsg = some ⟨0,cfg',errMsg⟩ ∧ SameConfig cfg' cfg

omit hstd in
theorem listenAddress_v4 (stale : Buffer 16 → Buffer 16) (ip : IpAddress) (n : UInt32)
    (h : addressOf ip = .v4 n) : listenAddress stale ip = .v4 n := by
  cases ip with
  | v4 addr => exact h
  | v6 bytes => exact absurd h (by simp [addressOf])

theorem tunnel_reads (cfg : ProxyswissConfig) (hcfg : PrintableConfig cfg)
    (hone : OneColonEach cfg) (ht : cfg.input.type = .tunnel) (fv : List Argument)
    (hfv : fv.map Argument.text = arguments addressText cfg) (old : ProxyswissConfig)
    (hold : old.proxyChain = []) (errMsg : Wide) : ReadsBack cfg fv old errMsg := by
  obtain ⟨n,hn⟩ := hone.endpoint
  obtain ⟨x,hx,hxport,ip,hip,hxn⟩ := ip_target addressText hstd n cfg.input.listenAddr.port
  obtain ⟨y,hy,hysame⟩ := printed_target addressText hstd _ (hcfg.tunnel ht) (hone.tunnel ht)
  obtain ⟨es,hes⟩ := printed_entries addressText hstd _ hcfg.chain hone.chain
  simp only [arguments, ht, printedType] at hfv
  obtain ⟨t,fv,rfl,ht',hfv⟩ := List.map_eq_cons_iff.mp hfv
  obtain ⟨a,fv,rfl,ha,hfv⟩ := List.map_eq_cons_iff.mp hfv
  obtain ⟨b,fv,rfl,hb,hfv⟩ := List.map_eq_cons_iff.mp hfv
  have hep : (⟨.v4 n,cfg.input.listenAddr.port⟩ : Endpoint) = cfg.input.listenAddr := by
    rw [← hn]
  obtain ⟨L,hL⟩ := plain_parsed x
  obtain ⟨M,hM⟩ := plain_parsed y
  obtain ⟨N,hN⟩ := chain_parsed es
  refine ⟨max L (max M N),fun stale fuel hfuel => ?_⟩
  have hin := (endpoint_ok stale fuel a.text cfg.input.listenAddr).mpr ⟨_,x.port,ip,by
    rw [ha, ← hep, ← hx]; exact hL fuel (by omega),rfl,rfl,rfl,rfl,rfl,hip,by
    rw [listenAddress_v4 stale ip n hxn, hxport, hep]⟩
  have hout := (info_ok fuel b.text old.input.asTunnel none none _).mpr ⟨_,y.port,by
    rw [hb, ← hy]; exact hM fuel (by omega),rfl,iff_of_true rfl rfl,fun _ => ⟨rfl,rfl⟩,rfl,rfl⟩
  let start : ProxyswissConfig := { old with input := ⟨.tunnel,cfg.input.listenAddr,
    (destinationFromHost old.input.asTunnel y.host.address y.port).1,old.input.asProxyServer⟩ }
  have hcall : ∀ r, proxyChainFrom fuel 3 fv {} start errMsg = some r →
      configFromCmdline stale fuel (t::a::b::fv) old errMsg = some r := by
    intro r hr
    rw [tunnel_from stale fuel t a b fv old errMsg ht']
    simp only [tunnelFrom, hin, hout, Option.bind_some]
    exact hr
  obtain ⟨infos,hall,hr⟩ := chain_read addressText fuel 3 es cfg.proxyChain fv {} start errMsg
    hes hfv (hN fuel (by omega))
  have hchain : start.proxyChain ++ infos = infos := by
    rw [show start.proxyChain = [] from hold, List.nil_append]
  exact ⟨_,hcall _ hr,ht.symm,rfl,fun _ => hysame _,fun h => absurd (ht.symm.trans h) (by simp),
    hchain.symm ▸ hall⟩

theorem proxy_reads (cfg : ProxyswissConfig) (hcfg : PrintableConfig cfg)
    (hone : OneColonEach cfg) (ht : cfg.input.type = .proxyServer) (fv : List Argument)
    (hfv : fv.map Argument.text = arguments addressText cfg) (old : ProxyswissConfig)
    (hold : old.proxyChain = []) (errMsg : Wide) : ReadsBack cfg fv old errMsg := by
  obtain ⟨n,hn⟩ := hone.endpoint
  obtain ⟨x,hx,hxport,ip,hip,hxn⟩ := ip_target addressText hstd n cfg.input.listenAddr.port
  obtain ⟨es,hes⟩ := printed_entries addressText hstd _ hcfg.chain hone.chain
  simp only [arguments, ht, printedType] at hfv
  obtain ⟨t,fv,rfl,ht',hfv⟩ := List.map_eq_cons_iff.mp hfv
  obtain ⟨a,fv,rfl,ha,hfv⟩ := List.map_eq_cons_iff.mp hfv
  have hep : (⟨.v4 n,cfg.input.listenAddr.port⟩ : Endpoint) = cfg.input.listenAddr := by
    rw [← hn]
  obtain ⟨M,hM⟩ := server_parsed cfg.input.asProxyServer x
  obtain ⟨N,hN⟩ := chain_parsed es
  refine ⟨max M N,fun stale fuel hfuel => ?_⟩
  have hin := (info_ok fuel a.text {} (some []) none _).mpr ⟨_,x.port,by
    rw [ha, type_text, ← hep, ← hx]; exact hM fuel (by omega),rfl,by simp [Target.parsed],
      fun _ => ⟨rfl,rfl⟩,rfl,rfl⟩
  simp only [Target.parsed, hip, destination_ip, hxn] at hin
  let l : Locals := ⟨⟨[],.v4 n,x.port⟩,{},serverTypeText cfg.input.asProxyServer⟩
  let start : ProxyswissConfig := { old with input := ⟨.proxyServer,⟨.v4 n,x.port⟩,
    old.input.asTunnel,cfg.input.asProxyServer⟩ }
  have hcall : ∀ r, proxyChainFrom fuel 2 fv l start errMsg = some r →
      configFromCmdline stale fuel (t::a::fv) old errMsg = some r := by
    intro r hr
    rw [proxy_from stale fuel t a fv old errMsg ht', proxyFrom, hin, Option.bind_some]
    simp only [Locals.assign, Option.getD_some, server_type]
    exact hr
  obtain ⟨infos,hall,hr⟩ := chain_read addressText fuel 2 es cfg.proxyChain fv l start errMsg
    hes hfv (hN fuel (by omega))
  have hchain : start.proxyChain ++ infos = infos := by
    rw [show start.proxyChain = [] from hold, List.nil_append]
  refine ⟨_,hcall _ hr,ht.symm,?_,fun h => absurd (ht.symm.trans h) (by simp),fun _ => rfl,
    hchain.symm ▸ hall⟩
  rw [← hep, ← hxport]

end Lines

/-! An address with colons in it. -/

/-- What stands behind the scheme and the credentials is parsed as it is by itself. -/
theorem tail_parsed (fuel : ℕ) (text s t : Wide) (scheme : Option Wide) (up : UrlParser UInt16)
    (hs : schemePart text = some (scheme,s)) (ht : (userinfoPart s).2.2 = t)
    (hslash : tchar '/' ∉ t) (hat : tchar '@' ∉ t) (h : parse fuel text = some (some up)) :
    ∃ up', parse fuel t = some (some up') := by
  obtain ⟨scheme',s',host,u,port,r,hs',hh,hp,-⟩ := (parse_some fuel text up).mp h
  obtain ⟨-,rfl⟩ := Prod.mk.inj (Option.some.inj (hs.symm.trans hs'))
  rw [ht] at hh
  refine ⟨_,(parse_some fuel t _).mpr ⟨none,t,host,u,port,r,scheme_absent t (no_scheme t hslash),
    ?_,hp,rfl⟩⟩
  rw [userinfo_absent t hat]
  exact hh

section Colons

variable (addressText : Address → Bytes) (hstd : StandardText addressText) (a : Buffer 16)
  (port : UInt16)

include hstd

/-- Neither a slash nor an `@` is in the text of an address. -/
theorem endpoint_clean :
    tchar '/' ∉ printedEndpoint addressText ⟨.v6 a,port⟩ ∧
      tchar '@' ∉ printedEndpoint addressText ⟨.v6 a,port⟩ := by
  have hchar := fun c hc => standard_char c (hstd.v6 a c hc)
  have hdigit := (port_read port).digit
  simp only [printedEndpoint, List.mem_append, List.mem_cons, not_or]
  exact ⟨⟨text_clean _ '/' fun c hc => (hchar c hc).2.1,tchar_ne _ _ (by decide),
      digits_clean _ hdigit '/' (by decide)⟩,
    text_clean _ '@' fun c hc => (hchar c hc).2.2.1,tchar_ne _ _ (by decide),
      digits_clean _ hdigit '@' (by decide)⟩

/-- The first colon of the address would end the host. -/
theorem endpoint_unparsed (fuel : ℕ) (up : UrlParser UInt16) :
    parse fuel (printedEndpoint addressText ⟨.v6 a,port⟩) ≠ some (some up) := by
  have hchar := fun c hc => standard_char c (hstd.v6 a c hc)
  have hcolons := hstd.colons a
  rw [printedEndpoint]
  generalize addressText (.v6 a) = t at hchar hcolons ⊢
  obtain ⟨u,v,rfl,hu⟩ := List.eq_append_cons_of_mem (List.count_pos_iff.mp (by omega) : 0x3a ∈ t)
  have hsplit : (strToTstr (u ++ 0x3a::v) ++ tchar ':'::strToTstr (strFromUint port.toNat) : Wide)
      = strToTstr u ++ tchar ':'::strToTstr (v ++ 0x3a::strFromUint port.toNat) := by
    simp [strToTstr, tchar]
  rw [hsplit]
  refine colons_unparsed fuel u _ up
    (fun c hc => ⟨fun h0 => hu (h0 ▸ hc),(hchar c (by simp [hc])).2⟩) (fun c hc => ?_) (by simp)
  simp only [List.mem_append, List.mem_cons] at hc
  rcases hc with hc | rfl | hc
  · obtain ⟨h,hslash,hat,-⟩ := hchar c (by simp [hc])
    exact ⟨h,hslash,hat⟩
  · decide
  · exact port_char _ c hc

theorem printed_colons (dst : Destination) (hno : dst.hostname = [])
    (hip : dst.ipAddress = .v6 a) :
    toWstring addressText dst = printedEndpoint addressText ⟨.v6 a,dst.port⟩ := by
  have hhost : printedHost addressText dst = addressText (.v6 a) := by
    rw [printedHost, if_neg (by simp [Destination.usingHostname, hno]), hip]
  rw [toWstring_text addressText dst (hhost ▸ address_fits addressText hstd _ _)
    (by rw [hhost]; exact fun c hc => (standard_char c (hstd.v6 a c hc)).1), hhost]
  rfl

/-- Neither a type nor credentials in front of it help. -/
theorem typed_unparsed (fuel : ℕ) (up : UrlParser UInt16) (type pre : Wide) (hne : type ≠ [])
    (hc : tchar ':' ∉ type) (hpre : pre = [] ∨ ∃ u, pre = u ++ [tchar '@'] ∧ tchar '@' ∉ u) :
    parse fuel (type ++ (tstr "://" ++ (pre ++ printedEndpoint addressText ⟨.v6 a,port⟩))) ≠
      some (some up) := by
  obtain ⟨hslash,hat⟩ := endpoint_clean addressText hstd a port
  intro h
  have hs := scheme_written type (pre ++ printedEndpoint addressText ⟨.v6 a,port⟩) hne hc
  have ht : (userinfoPart (pre ++ printedEndpoint addressText ⟨.v6 a,port⟩)).2.2 =
      printedEndpoint addressText ⟨.v6 a,port⟩ := by
    rcases hpre with rfl | ⟨u,rfl,hu⟩
    · rw [List.nil_append, userinfo_absent _ hat]
    · rw [List.append_assoc, List.singleton_append, userinfo_written u _ hu]
  obtain ⟨up',hup⟩ := tail_parsed fuel _ _ _ _ up hs ht hslash hat h
  exact endpoint_unparsed addressText hstd a port fuel up' hup

end Colons

theorem forall₂_left {α β : Type} {R : α → β → Prop} {l : List α} {m : List β}
    (h : List.Forall₂ R l m) : ∀ a ∈ l, ∃ b ∈ m, R a b := by
  induction h with
  | nil => exact fun a ha => absurd ha List.not_mem_nil
  | @cons a b l m hab _ ih =>
    intro x hx
    rcases List.mem_cons.mp hx with rfl | hx
    · exact ⟨b,List.mem_cons_self ..,hab⟩
    · obtain ⟨y,hy,hxy⟩ := ih x hx
      exact ⟨y,List.mem_cons_of_mem _ hy,hxy⟩

/-- Every argument behind the type has been parsed. -/
theorem arguments_parsed (stale : Buffer 16 → Buffer 16) (fuel : ℕ) (fv : List Argument)
    (cfg cfg' : ProxyswissConfig) (errMsg errMsg' : Wide) (texts : List Wide)
    (hfv : fv.map Argument.text = texts)
    (h : configFromCmdline stale fuel fv cfg errMsg = some ⟨0,cfg',errMsg'⟩) :
    ∀ x ∈ texts.tail, ∃ up, parse fuel x = some (some up) := by
  intro x hx
  rw [← hfv, ← List.map_tail] at hx
  obtain ⟨a,ha,rfl⟩ := List.mem_map.mp hx
  obtain ⟨t,b,rest,rfl,-,y,ys,-,hb,hrest⟩ :=
    CmdlineFaithfulness.line_stored stale fuel fv cfg cfg' errMsg errMsg' h
  rcases List.mem_cons.mp ha with rfl | ha
  · obtain ⟨up,-,-,hup,-⟩ := hb
    exact ⟨up,hup⟩
  · obtain ⟨z,-,up,-,-,hup,-⟩ := forall₂_left hrest a ha
    exact ⟨up,hup⟩

section Both

variable (addressText : Address → Bytes) (hstd : StandardText addressText)

include hstd

theorem one_colon (dst : Destination)
    (h : ∀ a, toWstring addressText dst ≠ printedEndpoint addressText ⟨.v6 a,dst.port⟩) :
    OneColon dst := by
  by_cases hno : dst.hostname = []
  · cases hip : dst.ipAddress with
    | v4 n => exact .inr ⟨n,hip⟩
    | v6 a => exact absurd (printed_colons addressText hstd a dst hno hip) (h a)
  · exact .inl hno

theorem proxy_parsed (fuel : ℕ) (pci : ProxyClientInfo) (hc : PrintableCreds pci.proxyCreds)
    (up : UrlParser UInt16) (h : parse fuel (printedProxy addressText pci) = some (some up)) :
    OneColon pci.proxyAddress := by
  refine one_colon addressText hstd _ fun a ha => ?_
  have hne : clientSessionTypeToString pci.proxyClientType ≠ [] := by
    cases pci.proxyClientType
    decide
  have hcolon : tchar ':' ∉ clientSessionTypeToString pci.proxyClientType := by
    cases pci.proxyClientType
    decide
  have hno := fun pre => typed_unparsed addressText hstd a pci.proxyAddress.port fuel up
    (clientSessionTypeToString pci.proxyClientType) pre hne hcolon
  rw [printedProxy, ha] at h
  split_ifs at h with he
  · exact hno [] (.inl rfl) h
  · refine hno (strToTstr pci.proxyCreds.username ++
      tchar ':'::(strToTstr pci.proxyCreds.password ++ [tchar '@'])) (.inr ⟨_,by
        rw [← List.cons_append, ← List.append_assoc],?_⟩) (by simpa using h)
    have hat : (tchar '@' : UInt16) ≠ tchar ':' := tchar_ne _ _ (by decide)
    simp only [List.mem_append, List.mem_cons, not_or]
    exact ⟨text_clean _ '@' fun c hx => (hc.username c hx).2,hat,text_clean _ '@' hc.password⟩

theorem reads_one (cfg : ProxyswissConfig) (hcfg : PrintableConfig cfg) (fv : List Argument)
    (hfv : fv.map Argument.text = arguments addressText cfg) (old : ProxyswissConfig)
    (errMsg : Wide) (h : ReadsBack cfg fv old errMsg) : OneColonEach cfg := by
  obtain ⟨N,hN⟩ := h
  obtain ⟨cfg',hr,-⟩ := hN id N le_rfl
  have hparsed := arguments_parsed id N fv old cfg' errMsg errMsg _ hfv hr
  refine ⟨?_,fun ht => ?_,fun pci hpci => ?_⟩
  · cases hep : cfg.input.listenAddr.address with
    | v4 n => exact ⟨n,rfl⟩
    | v6 a =>
      have hend : cfg.input.listenAddr = ⟨.v6 a,cfg.input.listenAddr.port⟩ := by rw [← hep]
      cases ht : cfg.input.type with
      | tunnel =>
        obtain ⟨up,hup⟩ := hparsed (printedEndpoint addressText cfg.input.listenAddr) (by
          simp [arguments, ht])
        rw [hend] at hup
        exact (endpoint_unparsed addressText hstd a _ N up hup).elim
      | proxyServer =>
        obtain ⟨up,hup⟩ := hparsed (serverSessionTypeToString cfg.input.asProxyServer ++
          (tstr "://" ++ printedEndpoint addressText cfg.input.listenAddr)) (by
            simp [arguments, ht, printedType])
        rw [hend, type_text] at hup
        refine (typed_unparsed addressText hstd a _ N up _ [] ?_ ?_ (.inl rfl) hup).elim
        · cases cfg.input.asProxyServer <;> decide
        · cases cfg.input.asProxyServer <;> decide
  · refine one_colon addressText hstd _ fun a ha => ?_
    obtain ⟨up,hup⟩ := hparsed (toWstring addressText cfg.input.asTunnel) (by
      simp [arguments, ht, printedType])
    exact endpoint_unparsed addressText hstd a _ N up (ha ▸ hup)
  · obtain ⟨up,hup⟩ := hparsed (printedProxy addressText pci) (by
      have hin : printedProxy addressText pci ∈ proxies addressText cfg := List.mem_map_of_mem hpci
      unfold arguments
      cases cfg.input.type <;> simp [hin])
    exact proxy_parsed addressText hstd N pci (hcfg.chain pci hpci).2 up hup

/-- The parts of a command line stand in what is printed for a configuration,
and it is taken for that configuration exactly if no address has colons in it. -/
theorem print_config_reads (cfg : ProxyswissConfig) (hcfg : PrintableConfig cfg)
    (fv : List Argument) (hfv : fv.map Argument.text = arguments addressText cfg)
    (old : ProxyswissConfig) (hold : old.proxyChain = []) (errMsg : Wide) :
    Printed addressText cfg (printConfig addressText cfg) ∧
      (ReadsBack cfg fv old errMsg ↔ OneColonEach cfg) := by
  refine ⟨config_printed addressText cfg,reads_one addressText hstd cfg hcfg fv hfv old errMsg,
    fun hone => ?_⟩
  cases ht : cfg.input.type with
  | tunnel => exact tunnel_reads addressText hstd cfg hcfg hone ht fv hfv old hold errMsg
  | proxyServer => exact proxy_reads addressText hstd cfg hcfg hone ht fv hfv old hold errMsg

end Both

/-- A tunnel to a name, through a proxy with credentials. -/
def namedConfig : ProxyswissConfig where
  input := ⟨.tunnel,⟨.v4 0x01020304,5500⟩,⟨ascii "h",default,80⟩,.socks5⟩
  proxyChain := [⟨.socks5,⟨ascii "h",default,80⟩,⟨ascii "a",ascii "b"⟩⟩]

theorem named_creds : PrintableCreds ⟨ascii "a",ascii "b"⟩ := by
  have huser : ascii "a" = [0x61] := rfl
  have hpwd : ascii "b" = [0x62] := rfl
  refine ⟨fun c hc => ?_,fun c hc => ?_⟩
  · rw [huser] at hc
    rw [List.mem_singleton.mp hc]
    decide
  · rw [hpwd] at hc
    rw [List.mem_singleton.mp hc]
    decide

theorem print_config_reads_named : ReadsBack namedConfig (plainArguments.take 4) emptyConfig [] :=
  (print_config_reads ntopText ntopText_standard namedConfig
    ⟨fun _ => name_printable,fun _ h => List.mem_singleton.mp h ▸ ⟨name_printable,named_creds⟩⟩
    (plainArguments.take 4) rfl emptyConfig rfl []).2.mpr
      ⟨⟨_,rfl⟩,fun _ => .inl (by decide),fun _ h => List.mem_singleton.mp h ▸ .inl (by decide)⟩

end ProxySwiss.PrintConfig
