import ProxySwiss.HostConversions
import ProxySwiss.IpText

/-!
# Destinations as they are printed

The text of a destination is its host, a colon and its port, with no brackets
around an address that has colons itself. The text of an address comes from the
network library; what is asked of it is stated here.
-/

set_option autoImplicit false

namespace ProxySwiss.PrintedDestination
open Memory Text InetPton UrlParser Ipv4Literal HostText ConfigFromCmdline CmdlineParts
open HostConversions

/-- A narrow argument of a wide format, in the locale that a program starts in. -/
def wideText (s : Bytes) : Wide := (cstr s).map fun c => UInt16.ofNat c.toNat

/-- The standard text of an address: four numbers, the first of them at the top,
or hexadecimal digits and dots with colons between them. -/
structure StandardText (addressText : Address → Bytes) : Prop where
  v4 : ∀ n, Dotted (addressText (.v4 n)) (byte32 n 3) (byte32 n 2) (byte32 n 1) (byte32 n 0)
  v6 : ∀ a, ∀ c ∈ addressText (.v6 a), c = 0x3a ∨ c = 0x2e ∨ hexDigit c ≠ none
  colons : ∀ a, 2 ≤ (addressText (.v6 a)).count 0x3a
  short : ∀ a, (addressText a).length ≤ 45

/-- A host of this length is in the buffer of the formatter with its port and with
the zero behind them. -/
def Fits (length : ℕ) (port : UInt16) : Prop :=
  length+1+(strFromUint port.toNat).length < kPrintfBufSize

instance (length : ℕ) (port : UInt16) : Decidable (Fits length port) :=
  inferInstanceAs (Decidable (_ < _))

/-- The destinations that the notation is meant for. -/
structure Printable (dst : Destination) : Prop where
  ascii : ∀ c ∈ dst.hostname, c ≠ 0 ∧ c.toNat < 128
  clean : ∀ c ∈ dst.hostname, c ≠ 0x3a ∧ c ≠ 0x2f ∧ c ≠ 0x40 ∧ c ≠ 0x5b
  short : Fits dst.hostname.length dst.port
  other : dst.hostname ≠ [] → fromStringIpv4 0 dst.hostname = some none

section Text

variable (addressText : Address → Bytes)

def printedHost (dst : Destination) : Bytes :=
  if dst.usingHostname then dst.hostname else addressText dst.ipAddress

def toWstring (dst : Destination) : Wide :=
  strPrintf [wideText (printedHost addressText dst),tstr ":",strToTstr (strFromUint dst.port.toNat)]

/-- The text is taken without scheme and credentials, for the same host and port. -/
def ReadBack (dst : Destination) : Prop :=
  ∃ N, ∀ fuel, N ≤ fuel → ∀ old, ∃ info,
    proxyInfoFromString fuel (toWstring addressText dst) old none none = some (.ok info) ∧
      Same info.dst dst

end Text

theorem wideText_ascii (s : Bytes) (h : ∀ c ∈ s, c ≠ 0 ∧ c.toNat < 128) :
    wideText s = strToTstr s := by
  have hcstr : cstr s = s := by
    apply List.takeWhile_eq_self_iff.mpr
    intro c hc
    simpa using (h c hc).1
  rw [wideText, hcstr]
  refine List.map_congr_left fun c hc => ?_
  exact (if_pos (h c hc).2).symm

/-- The buffer is large enough for every address. -/
theorem address_fits (addressText : Address → Bytes) (hstd : StandardText addressText)
    (a : Address) (port : UInt16) : Fits (addressText a).length port := by
  have hport := strFromUint_length port.toNat 5 (by decide)
    (Nat.lt_of_lt_of_le port.toNat_lt (by decide))
  have hshort := hstd.short a
  simp only [Fits, kPrintfBufSize]
  omega

theorem toWstring_text (addressText : Address → Bytes) (dst : Destination)
    (hlen : Fits (printedHost addressText dst).length dst.port)
    (h : ∀ c ∈ printedHost addressText dst, c ≠ 0 ∧ c.toNat < 128) :
    toWstring addressText dst = strToTstr (printedHost addressText dst) ++
      tchar ':'::strToTstr (strFromUint dst.port.toNat) := by
  rw [toWstring, strPrintf, wideText_ascii _ h, List.take_of_length_le]
  · simp [tstr, tchar, strToTstr, ascii]
  · simp only [List.flatten_cons, List.flatten_nil, List.append_nil, List.length_append,
      strToTstr, List.length_map, tstr]
    have hcolon : (ascii ":").length = 1 := rfl
    have hfits : _ < kPrintfBufSize := hlen
    omega

theorem port_read (port : UInt16) :
    PortGrammar.PortText (strToTstr (strFromUint port.toNat) : Wide) port :=
  decimal_wide _ _ (strFromUint_decimal _)

/-- A host without separators is read as it is named. -/
theorem plain_parsed (addressText : Address → Bytes) (dst : Destination) (fuel : ℕ)
    (hlen : Fits (printedHost addressText dst).length dst.port)
    (h : ∀ c ∈ printedHost addressText dst, c ≠ 0 ∧ c.toNat < 128)
    (hp : PlainHost (strToTstr (printedHost addressText dst) : Wide)) :
    parse fuel (toWstring addressText dst) = some (some ⟨none,none,none,
      namedHost (strToTstr (printedHost addressText dst) : Wide),some dst.port,[]⟩) := by
  have hport := port_read dst.port
  have hlt := dst.port.toNat_lt
  have hslash := digits_clean _ hport.digit '/' (by decide)
  have hat := digits_clean _ hport.digit '@' (by decide)
  rw [toWstring_text addressText dst hlen h, PortGrammar.parse_port fuel _ _ hp hslash hat,
    strToUint_decimal _ _ hport (by omega), Option.bind_some, if_neg (by omega),
    UInt16.ofNat_toNat]

theorem plain_read (addressText : Address → Bytes) (dst : Destination)
    (hlen : Fits (printedHost addressText dst).length dst.port)
    (h : ∀ c ∈ printedHost addressText dst, c ≠ 0 ∧ c.toNat < 128)
    (hp : PlainHost (strToTstr (printedHost addressText dst) : Wide))
    (hsame : ∀ old, Same (destinationFromHost old
      (namedHost (strToTstr (printedHost addressText dst) : Wide)) dst.port).1 dst) :
    ReadBack addressText dst := by
  refine ⟨0,fun fuel _ old => ⟨_,(info_ok _ _ _ _ _ _).mpr ⟨_,dst.port,
    plain_parsed addressText dst fuel hlen h hp,rfl,by simp,by simp,rfl,rfl⟩,hsame old⟩⟩

theorem text_clean (s : Bytes) (c : Char) (h : ∀ x ∈ s, x ≠ UInt8.ofNat c.toNat) :
    tchar c ∉ (strToTstr s : Wide) := fun hin => h _ ((ascii_mem s c).mp hin) rfl

theorem name_plain (name : Bytes) (hne : name ≠ [])
    (hclean : ∀ c ∈ name, c ≠ 0x3a ∧ c ≠ 0x2f ∧ c ≠ 0x40 ∧ c ≠ 0x5b) :
    PlainHost (strToTstr name : Wide) := by
  refine ⟨by simpa [strToTstr] using hne,fun hhead => ?_,
    text_clean name ':' fun x hx => (hclean x hx).1,
    text_clean name '/' fun x hx => (hclean x hx).2.1,
    text_clean name '@' fun x hx => (hclean x hx).2.2.1⟩
  exact text_clean name '[' (fun x hx => (hclean x hx).2.2.2) (List.mem_of_head? hhead)

theorem name_read (addressText : Address → Bytes) (dst : Destination) (hd : Printable dst)
    (hne : dst.hostname ≠ []) : ReadBack addressText dst := by
  have huse : dst.usingHostname = true := by simpa [Destination.usingHostname] using hne
  have hhost : printedHost addressText dst = dst.hostname := if_pos huse
  have hnamed : namedHost (strToTstr dst.hostname : Wide) = .hostname dst.hostname := by
    have hother : fromStringIpv4 0 (strToTstr dst.hostname : Wide) = some none := by
      have hnarrow := hd.other hne
      have hid : dst.hostname.map CharT.toChar = dst.hostname := List.map_id'' (fun _ => rfl) _
      rw [fromStringIpv4_eq, InetPton.hostText, hid] at hnarrow
      rwa [fromStringIpv4_eq, hostText_strToTstr]
    rw [namedHost_hostname 0 _ hother, strToTstr, List.map_map]
    exact congrArg HostAddress.hostname (List.map_id'' CharT.toChar_ofChar _)
  refine plain_read addressText dst ?_ ?_ ?_ fun old => ?_ <;> rw [hhost]
  · exact hd.short
  · exact hd.ascii
  · exact name_plain _ hne hd.clean
  · rw [hnamed]
    refine ⟨rfl,fun hunused => absurd hunused ?_,rfl⟩
    simpa [destinationFromHost, Destination.usingHostname] using hne

theorem dotted_ascii (s : Bytes) (a b c d : UInt8) (h : Dotted s a b c d) :
    ∀ x ∈ s, x ≠ 0 ∧ x.toNat < 128 := by
  intro x hx
  rcases (dotted_plain s a b c d h).1 x hx with hd | rfl
  · have hlo : 48 ≤ x.toNat := hd.1
    have hhi : x.toNat ≤ 57 := hd.2
    refine ⟨?_,by omega⟩
    rintro rfl
    exact absurd hlo (by decide)
  · decide

theorem ipv4_read (addressText : Address → Bytes) (hstd : StandardText addressText)
    (dst : Destination) (n : UInt32) (hno : dst.hostname = []) (hip : dst.ipAddress = .v4 n) :
    ReadBack addressText dst := by
  have hhost : printedHost addressText dst = addressText (.v4 n) := by
    rw [printedHost, if_neg (by simp [Destination.usingHostname, hno]), hip]
  have hdotted := hstd.v4 n
  have hwide := IpText.dotted_wide (T := UInt16) _ _ _ _ _ hdotted
  refine plain_read addressText dst ?_ ?_ ?_ fun old => ?_ <;> rw [hhost]
  · exact address_fits addressText hstd _ _
  · exact dotted_ascii _ _ _ _ _ hdotted
  · exact dotted_host _ _ _ _ _ hwide
  · rw [namedHost_ip 0 _ _ (dotted_accepted 0 _ _ _ _ _ hwide), destination_ip, addressOf,
      htonl_ofLe32, ofLe32_byte32]
    exact ⟨hno.symm,fun _ => hip.symm,rfl⟩

theorem standard_char (c : UInt8) (h : c = 0x3a ∨ c = 0x2e ∨ hexDigit c ≠ none) :
    (c ≠ 0 ∧ c.toNat < 128) ∧ c ≠ 0x2f ∧ c ≠ 0x40 ∧ c ≠ 0x5b := by
  rcases h with rfl | rfl | h
  · decide
  · decide
  · have hrange : c.toNat < 128 ∧ c.toNat ≠ 0 ∧ c.toNat ≠ 0x2f ∧ c.toNat ≠ 0x40 ∧
        c.toNat ≠ 0x5b := by
      unfold hexDigit at h
      split_ifs at h with h1 h2 h3 <;> first | omega | exact absurd rfl h
    refine ⟨⟨?_,hrange.1⟩,?_,?_,?_⟩ <;> rintro rfl <;> exact absurd hrange (by decide)

/-- A host that begins with a colon is empty. -/
theorem colon_first (fuel : ℕ) (rest : Wide) (up : UrlParser UInt16) (hslash : tchar '/' ∉ rest)
    (hat : tchar '@' ∉ rest) : parse fuel (tchar ':'::rest) ≠ some (some up) := by
  intro h
  have hurl : tchar '/' ∉ tchar ':'::rest := by simp [hslash, slash_ne_colon]
  have huser : tchar '@' ∉ tchar ':'::rest := by simp [hat, tchar_ne '@' ':' (by decide)]
  obtain ⟨scheme,s,host,t,port,r,hs,hh,-,-⟩ := (parse_some fuel _ up).mp h
  rw [scheme_absent _ (no_scheme _ hurl)] at hs
  obtain ⟨rfl,rfl⟩ := Prod.mk.inj (Option.some.inj hs)
  have hhead : (tchar ':'::rest).head? ≠ some (tchar '[' : UInt16) := by
    simp [tchar_ne ':' '[' (by decide)]
  have hraw : hostRaw (tchar ':'::rest) = [] := (host_colon [] rest (by simp)).1
  rw [userinfo_absent _ huser, hostPart, if_neg hhead, named_some, hraw] at hh
  rcases hh.2 with ⟨ip,hip,-⟩ | ⟨-,hne,-⟩
  · obtain ⟨a,b,c,d,hscan,-⟩ := (fromStringIpv4_some fuel _ ip).mp hip
    exact scanned_nonempty _ a b c d hscan rfl
  · exact hne rfl

/-- A port has no colon in it. -/
theorem colon_port (s : Bytes) (hs : ∀ c ∈ s, c ≠ 0 ∧ c.toNat < 128) (hcolon : 0x3a ∈ s) (v : ℕ) :
    strToUint (strToTstr s : Wide) ≠ some v := by
  intro h
  have hcode : ∀ c ∈ s, CharT.code (CharT.ofChar c : UInt16) = c.toNat :=
    fun c hc => LawfulCharT.code_ofChar c (hs c hc).2
  have hnul : upToNul (strToTstr s : Wide) = strToTstr s := by
    apply List.takeWhile_eq_self_iff.mpr
    intro x hx
    obtain ⟨c,hc,rfl⟩ := List.mem_map.mp hx
    simp only [hcode c hc, ne_eq, decide_eq_true_eq]
    intro h0
    exact (hs c hc).1 (UInt8.toNat_inj.mp h0)
  have hin : tchar ':' ∈ (strToTstr s : Wide) := List.mem_map_of_mem hcolon
  rw [strToUint_iff, hnul] at h
  rcases h with ⟨h0,-⟩ | hn
  · rw [h0] at hin
    simp at hin
  · rcases scanned_mem wrap _ v hn _ hin with hc | hc | hc | hc <;> exact absurd hc (by decide)

/-- The first colon ends the host, and another one is in the port. -/
theorem colons_unparsed (fuel : ℕ) (u rest : Bytes) (up : UrlParser UInt16)
    (hu : ∀ c ∈ u, c ≠ 0x3a ∧ c ≠ 0x2f ∧ c ≠ 0x40 ∧ c ≠ 0x5b)
    (hrest : ∀ c ∈ rest, (c ≠ 0 ∧ c.toNat < 128) ∧ c ≠ 0x2f ∧ c ≠ 0x40) (hcolon : 0x3a ∈ rest) :
    parse fuel (strToTstr u ++ tchar ':'::strToTstr rest) ≠ some (some up) := by
  intro hup
  have hslash := text_clean rest '/' fun x hx => (hrest x hx).2.1
  have hat := text_clean rest '@' fun x hx => (hrest x hx).2.2
  by_cases hne : u = []
  · subst hne
    exact colon_first fuel _ up hslash hat hup
  · have hplain := name_plain u hne hu
    obtain ⟨w,-,hw⟩ := (PortGrammar.accepted_iff fuel _ _ hplain hslash hat).mp ⟨up,hup⟩
    exact colon_port rest (fun c hc => (hrest c hc).1) hcolon w hw

theorem port_char (n : ℕ) (c : UInt8) (hc : c ∈ strFromUint n) :
    (c ≠ 0 ∧ c.toNat < 128) ∧ c ≠ 0x2f ∧ c ≠ 0x40 := by
  have hdigit : 48 ≤ c.toNat ∧ c.toNat ≤ 57 := (strFromUint_decimal n).digit c hc
  refine ⟨⟨?_,by omega⟩,?_,?_⟩ <;> rintro rfl <;> exact absurd hdigit (by decide)

theorem ipv6_unread (addressText : Address → Bytes) (hstd : StandardText addressText)
    (dst : Destination) (a : Buffer 16) (hno : dst.hostname = []) (hip : dst.ipAddress = .v6 a) :
    ¬ ReadBack addressText dst := by
  have hhost : printedHost addressText dst = addressText (.v6 a) := by
    rw [printedHost, if_neg (by simp [Destination.usingHostname, hno]), hip]
  have hchar := fun c hc => standard_char c (hstd.v6 a c hc)
  have hcolons := hstd.colons a
  have htext := toWstring_text addressText dst (hhost ▸ address_fits addressText hstd _ _)
    (by rw [hhost]; exact fun c hc => (hchar c hc).1)
  rw [hhost] at htext
  generalize addressText (.v6 a) = t at htext hchar hcolons
  have hcolon : 0x3a ∈ t := List.count_pos_iff.mp (by omega)
  obtain ⟨u,v,rfl,hu⟩ := List.eq_append_cons_of_mem hcolon
  have hsplit : toWstring addressText dst = strToTstr u ++
      tchar ':'::strToTstr (v ++ 0x3a::strFromUint dst.port.toNat) := by
    rw [htext]
    simp [strToTstr, tchar]
  rintro ⟨N,hN⟩
  obtain ⟨info,hinfo,-⟩ := hN N le_rfl {}
  obtain ⟨up,port,hup,-⟩ := (info_ok _ _ _ _ _ _).mp hinfo
  rw [hsplit] at hup
  refine colons_unparsed N u _ up (fun c hc => ⟨fun h0 => hu (h0 ▸ hc),(hchar c (by simp [hc])).2⟩)
    (fun c hc => ?_) (by simp) hup
  simp only [List.mem_append, List.mem_cons] at hc
  rcases hc with hc | rfl | hc
  · obtain ⟨h,hslash,hat,-⟩ := hchar c (by simp [hc])
    exact ⟨h,hslash,hat⟩
  · decide
  · exact port_char _ c hc

/-- A printed destination is read back unless its host is an IPv6 address. -/
theorem printed_read (addressText : Address → Bytes) (hstd : StandardText addressText)
    (dst : Destination) (hd : Printable dst) :
    ReadBack addressText dst ↔ dst.hostname ≠ [] ∨ ∃ n, dst.ipAddress = .v4 n := by
  by_cases hne : dst.hostname = []
  · cases hip : dst.ipAddress with
    | v4 n => exact ⟨fun _ => .inr ⟨n,rfl⟩,fun _ => ipv4_read addressText hstd dst n hne hip⟩
    | v6 a =>
      refine ⟨fun h => absurd h (ipv6_unread addressText hstd dst a hne hip),?_⟩
      rintro (h | ⟨n,h⟩)
      · exact absurd hne h
      · exact absurd h (by simp)
  · exact ⟨fun _ => .inl hne,fun _ => name_read addressText dst hd hne⟩

/-- The text that the repository's own formatter writes is of the standard form. -/
def ntopText : Address → Bytes
  | .v4 n => InetNtop.inetNtop 0 (.v4 (htonl n))
  | .v6 a => InetNtop.inetNtop 0 (.v6 a)

theorem joined_colons (gs : List Bytes) : gs.length ≤ (joined gs).count 0x3a+1 := by
  induction gs with
  | nil => exact Nat.zero_le _
  | cons g gs ih =>
    cases gs with
    | nil => exact Nat.le_add_left _ _
    | cons x xs =>
      rw [joined, List.count_append, List.count_cons_self, List.length_cons]
      omega

theorem ipv6_colons (s x : Bytes) (h : Ipv6Text s x) : 2 ≤ s.count 0x3a := by
  cases h with
  | full gs ws hgs hlen =>
    have hcount := joined_colons gs
    have hl := hgs.length_eq
    omega
  | gap fs bs us vs zeros hfs hbs hlen hzeros =>
    rw [List.count_append, List.count_cons_self, List.count_cons_self]
    omega

theorem ntopText_standard : StandardText ntopText where
  v4 n := by
    have hd := IpText.ntop4_dotted (htonl n)
    obtain ⟨h0,h1,h2,h3⟩ := byte32_ofLe32 (byte32 n 3) (byte32 n 2) (byte32 n 1) (byte32 n 0)
    rw [htonl, h0, h1, h2, h3] at hd
    exact hd
  v6 a c hc := by
    rcases ipv6Text_mem _ _ (InetNtop.inetNtop6_text a) c hc with h | h
    · exact .inl h
    · exact .inr (.inr h)
  colons a := ipv6_colons _ _ (InetNtop.inetNtop6_text a)
  short a := by
    cases a with
    | v4 n => exact Nat.le_of_lt_succ (IpText.ntop_short (.v4 (htonl n)))
    | v6 a => exact Nat.le_of_lt_succ (IpText.ntop_short (.v6 a))

theorem name_printable : Printable ⟨ascii "h",default,80⟩ := by
  have hname : ascii "h" = [0x68] := rfl
  refine ⟨fun c hc => ?_,fun c hc => ?_,by decide,fun _ => rfl⟩
  · rw [hname] at hc
    rw [List.mem_singleton.mp hc]
    decide
  · rw [hname] at hc
    rw [List.mem_singleton.mp hc]
    decide

theorem printed_read_name : ReadBack ntopText ⟨ascii "h",default,80⟩ :=
  (printed_read ntopText ntopText_standard ⟨ascii "h",default,80⟩ name_printable).mpr
    (.inl (by decide))

/-- The loopback address of the longer family. -/
theorem loopback_unread : ∃ a, Printable ⟨[],.v6 a,443⟩ ∧ StandardText ntopText ∧
    ¬ ReadBack ntopText ⟨[],.v6 a,443⟩ := by
  let a : Buffer 16 := ⟨[0,0,0,0,0,0,0,0,0,0,0,0,0,0,0,1],rfl⟩
  exact ⟨a,⟨by simp,by simp,by decide,by simp⟩,ntopText_standard,
    ipv6_unread ntopText ntopText_standard _ a rfl rfl⟩

end ProxySwiss.PrintedDestination
