import ProxySwiss.StreamRun
import ProxySwiss.ClientSessionSocks5
import ProxySwiss.Socks5Messages

/-!
# Runs of the SOCKS5 client

Between two callbacks the client is in one of a dozen phases. Each phase fixes
what is outstanding and what has been received and written so far, for every
peer and every failure of the socket.
-/

set_option autoImplicit false

namespace ProxySwiss.ClientSocks5Run
open Memory TransitionSystem CallbackObject StreamObject Socks5 ClientSessionSocks5

abbrev ClientState := State Session Callback UInt8 ErrorCode Event
abbrev ClientWire := Wire Session Callback UInt8 Event

theorem authWriteReq_eq (s : Session) :
    authWriteReq s = ({ s with writeBuf := greeting s.creds },
      [.start (.write (greeting s.creds) .authWriteReqHandler)]) := by
  cases h : s.creds.empty <;> simp [authWriteReq, BinWriter.ofString, greeting, h]

theorem toNat_ofNat32 (n : ℕ) (h : n ≤ 255) : (UInt32.ofNat n).toNat = n := by
  simp only [UInt32.toNat_ofNat']
  omega

theorem authWriteCreds_eq (s : Session) (creds : Credentials) (hc : s.creds = creds)
    (hu : creds.username.length ≤ 255) (hp : creds.password.length ≤ 255) :
    authWriteCreds s = ({ s with writeBuf := credsMessage creds },
      [.start (.write (credsMessage creds) .authWriteCredsHandler)]) := by
  simp [authWriteCreds, BinWriter.ofString, credsMessage, -UInt32.toNat_ofNat', hc,
    toNat_ofNat32 _ hu, toNat_ofNat32 _ hp]

theorem connWriteReq_eq (s : Session) (dst : Destination) (hd : s.userDst = dst)
    (hh : dst.usingHostname → dst.hostname.length ≤ 255) :
    connWriteReq s = ({ s with writeBuf := connectRequest dst },
      [.start (.write (connectRequest dst) .connWriteReqHandler)]) := by
  by_cases h : dst.usingHostname
  · simp [connWriteReq, BinWriter.ofString, connectRequest, address, hd, h, le16_htons,
      -UInt32.toNat_ofNat', toNat_ofNat32 _ (hh h)]
  · cases ha : dst.ipAddress with
    | v4 ulong =>
      simp [connWriteReq, BinWriter.ofString, connectRequest, address, hd, h, ha, le16_htons,
        le32_htonl]
    | v6 bytes =>
      have hb : bytes.bytes.take 16 = bytes.bytes :=
        List.take_of_length_le (Nat.le_of_eq bytes.size)
      simp [connWriteReq, BinWriter.ofString, connectRequest, address, hd, h, ha, le16_htons, hb]

/-- What may have been written when so much has been received. Nothing more is
received before the message that is being written is complete. -/
inductive Ordered (creds : Credentials) (dst : Destination) : Bytes → Bytes → Prop
  | greeting {taken sent : Bytes} (h : sent <+: greeting creds)
      (hx : sent ≠ Socks5.greeting creds → taken = []) : Ordered creds dst taken sent
  | credentials {taken sent : Bytes} (hc : creds.empty = false) (ht : [5,2] <+: taken)
      (h : sent <+: credsMessage creds) (hx : sent ≠ credsMessage creds → taken = [5,2]) :
      Ordered creds dst taken (Socks5.greeting creds ++ sent)
  | request {taken sent : Bytes} (ht : authAnswer creds <+: taken)
      (h : sent <+: connectRequest dst)
      (hx : sent ≠ connectRequest dst → taken = authAnswer creds) :
      Ordered creds dst taken (preamble creds ++ sent)

theorem ordered_script (creds : Credentials) (dst : Destination) (taken sent : Bytes)
    (h : Ordered creds dst taken sent) : sent <+: preamble creds ++ connectRequest dst := by
  cases h with
  | greeting h _ => exact h.trans (greeting_preamble creds dst)
  | credentials hc _ h _ =>
    rw [preamble, if_neg (by simp [hc]), List.append_assoc]
    exact (List.prefix_append_right_inj _).mpr (h.trans (List.prefix_append _ _))
  | request _ h _ => exact (List.prefix_append_right_inj _).mpr h

/-- The object while `write_connect_request` is under way. -/
structure Writing (creds : Credentials) (dst : Destination) (old : ConnectResponse)
    (s : Session) : Prop where
  creds : s.creds = creds
  dst : s.userDst = dst
  handler : s.userWriteReqHandler = true
  reader : s.userReadRespHandler = false
  pointer : s.puserConnResp = false
  connResp : s.connResp = old

/-- The object while `read_connect_response` is under way. -/
structure Awaiting (old : ConnectResponse) (s : Session) : Prop where
  handler : s.userReadRespHandler = true
  connResp : s.connResp = old

/-- The callbacks that end the address of a response. -/
def Completes (k : Callback) : Prop :=
  k = .connReadRespAddrIpv4Handler ∨ k = .connReadRespAddrDomainnameStrHandler ∨
    k = .connReadRespAddrIpv6Handler

theorem completes_run (k : Callback) (hk : Completes k) (s : Session) (data : Bytes)
    (err : ErrorCode) :
    run k (store s data k) err = connReadRespAddrComplete (store s data k) err ∧
      (store s data k).connReadPacketHeader = s.connReadPacketHeader ∧
      (store s data k).userReadRespHandler = s.userReadRespHandler ∧
      (store s data k).connResp = s.connResp := by
  rcases hk with rfl | rfl | rfl <;> exact ⟨rfl,rfl,rfl,rfl⟩

/-- The phases of reading a response; `base`, `out` and `es` are the histories
with which the reading began. -/
inductive Reading (f : Faults) (old : ConnectResponse) (base out : Bytes) (es : List Event)
    (c : ClientState) : Prop
  | header (hr : Awaiting old c.obj) (h : At c [.read 4 .connReadRespHandler] base out es)
  | length (rep rsv : UInt8) (hrep : rep ≤ 8) (hr : Awaiting old c.obj)
      (hh : c.obj.connReadPacketHeader.bytes = [5,rep,rsv,3])
      (h : At c [.read 1 .connReadRespAddrDomainnameHandler] (base ++ [5,rep,rsv,3]) out es)
  | address (rep rsv atyp : UInt8) (pre : Bytes) (n : ℕ) (k : Callback) (hrep : rep ≤ 8)
      (hk : Completes k) (hf : ∀ a : Bytes, a.length = n → AddressField atyp (pre ++ a))
      (hr : Awaiting old c.obj) (hh : c.obj.connReadPacketHeader.bytes = [5,rep,rsv,atyp])
      (h : At c [.read n k] (base ++ [5,rep,rsv,atyp] ++ pre) out es)
  | answered (rep : UInt8) (m : Bytes) (hm : Reply rep m)
      (hresp : c.obj.connResp = ⟨socks5RepToMajorCode rep⟩)
      (h : At c [] (base ++ m) out (es ++ [.call .readResp .noError]))
  | failed (err : ErrorCode) (t : Bytes) (herr : err.failed) (hresp : c.obj.connResp = old)
      (why : f.may err ∨ Malformed t) (h : At c [] (base ++ t) out (es ++ [.call .readResp err]))

/-- The phases of writing a request. -/
inductive Asking (f : Faults) (creds : Credentials) (dst : Destination) (old : ConnectResponse)
    (c : ClientState) : Prop
  | greet (hw : Writing creds dst old c.obj)
      (h : At c [.write (greeting creds) .authWriteReqHandler] [] [] [])
  | method (hw : Writing creds dst old c.obj)
      (h : At c [.read 2 .authReadRespHandler] [] (greeting creds) [])
  | credentials (hc : creds.empty = false) (hw : Writing creds dst old c.obj)
      (h : At c [.write (credsMessage creds) .authWriteCredsHandler] [5,2] (greeting creds) [])
  | status (hc : creds.empty = false) (hw : Writing creds dst old c.obj)
      (h : At c [.read 2 .authReadCredsReplyHandler] [5,2] (preamble creds) [])
  | request (hw : Writing creds dst old c.obj)
      (h : At c [.write (connectRequest dst) .connWriteReqHandler]
        (authAnswer creds) (preamble creds) [])
  | written (hr : c.obj.userReadRespHandler = false ∧ c.obj.puserConnResp = false)
      (hresp : c.obj.connResp = old)
      (h : At c [] (authAnswer creds) (preamble creds ++ connectRequest dst)
        [.call .writeReq .noError])
  | refused (err : ErrorCode) (t u : Bytes) (herr : err.failed) (ho : Ordered creds dst t u)
      (hresp : c.obj.connResp = old) (why : f.may err ∨ ¬ Accepted creds dst ∨ Refuses creds t)
      (h : At c [] t u [.call .writeReq err])

inductive Phase (f : Faults) (creds : Credentials) (dst : Destination) (old : ConnectResponse)
    (c : ClientState) : Prop
  | asking (h : Asking f creds dst old c)
  | reading (h : Reading f old (authAnswer creds) (preamble creds ++ connectRequest dst)
      [.call .writeReq .noError] c)

theorem call_writeReq (s : Session) (err : ErrorCode) (h : s.userWriteReqHandler = true) :
    callAndClearHandler s .writeReq err =
      ({ s with userWriteReqHandler := false },[.emit (.call .writeReq err)]) := by
  simp [callAndClearHandler, h]

theorem call_readResp (s : Session) (err : ErrorCode) (h : s.userReadRespHandler = true) :
    callAndClearHandler s .readResp err =
      ({ s with userReadRespHandler := false },[.emit (.call .readResp err)]) := by
  simp [callAndClearHandler, h]

/-- A callback that reports a failure to the writing user ends the call. -/
theorem refused_next (f : Faults) (creds : Credentials) (dst : Destination) (old : ConnectResponse)
    (c : ClientState) (op : Op UInt8 Callback) (res : Result UInt8 ErrorCode) (s : Session)
    (err : ErrorCode) (t u : Bytes) (hw : Writing creds dst old s) (h : At c [op] t u [])
    (herr : err.failed) (hd : client.done op res c.obj = callAndClearHandler s .writeReq err)
    (ho : Ordered creds dst (t ++ op.received res.data) (u ++ op.handed res.data))
    (why : f.may err ∨ ¬ Accepted creds dst ∨ Refuses creds (t ++ op.received res.data)) :
    Asking f creds dst old (c.next client [] [] op res) := by
  obtain ⟨hobj,hn⟩ := at_emit client c op t u [] res _ _ h
    (hd.trans (call_writeReq s err hw.handler))
  exact .refused err _ _ herr ho (by rw [hobj]; exact hw.connResp) why hn

theorem failed_next (f : Faults) (old : ConnectResponse) (base out : Bytes) (es : List Event)
    (c : ClientState) (n : ℕ) (k : Callback) (res : Result UInt8 ErrorCode) (s : Session)
    (err : ErrorCode) (t : Bytes) (hs : Awaiting old s)
    (h : At c [.read n k] (base ++ t) out es) (herr : err.failed)
    (hd : client.done (.read n k) res c.obj = callAndClearHandler s .readResp err)
    (why : f.may err ∨ Malformed (t ++ res.data)) :
    Reading f old base out es (c.next client [] [] (.read n k) res) := by
  obtain ⟨hobj,hn⟩ := at_emit client c _ _ _ es res _ _ h
    (hd.trans (call_readResp s err hs.handler))
  rw [List.append_assoc] at hn
  exact .failed err (t ++ res.data) herr (by rw [hobj]; exact hs.connResp) why
    (by simpa using hn)

/-- The header decides between refusal and the three forms of an address. -/
theorem header_done (s t : Session) (v rep rsv atyp : UInt8)
    (ht : t = { s with connReadPacketHeader := ⟨[v,rep,rsv,atyp],rfl⟩ }) :
    client.done (.read 4 .connReadRespHandler) (.ok [v,rep,rsv,atyp]) s =
      if v = 5 ∧ rep ≤ 8 then
        if atyp = 1 then connReadRespAddrIpv4 t
        else if atyp = 3 then connReadRespAddrDomainname t
        else if atyp = 4 then connReadRespAddrIpv6 t
        else callAndClearHandler t .readResp (makeErrorCode .protocolViolation)
      else callAndClearHandler t .readResp (makeErrorCode .protocolViolation) := by
  have hfill : s.connReadPacketHeader.fill [v,rep,rsv,atyp] = ⟨[v,rep,rsv,atyp],rfl⟩ :=
    Buffer.fill_eq (n := 4) _ _ rfl
  change connReadRespHandler
    { s with connReadPacketHeader := s.connReadPacketHeader.fill [v,rep,rsv,atyp] } .noError = _
  rw [hfill, ← ht, connReadRespHandler, if_neg ErrorCode.noError_failed]
  subst ht
  change (if v ≠ 5 then _ else if rep > 8 then _ else if atyp = 1 then _ else if atyp = 3 then _
    else if atyp = 4 then _ else _) = _
  by_cases hv : v = 5
  · by_cases hrep : rep ≤ 8
    · rw [if_neg (not_not.mpr hv), if_neg (UInt8.not_lt.mpr hrep), if_pos (And.intro hv hrep)]
    · rw [if_neg (not_not.mpr hv), if_pos (UInt8.not_le.mp hrep), if_neg (fun h => hrep h.2)]
  · rw [if_pos hv, if_neg (fun h => hv h.1)]

theorem header_next (f : Faults) (old : ConnectResponse) (base out : Bytes) (es : List Event)
    (c : ClientState) (res : Result UInt8 ErrorCode) (hr : Awaiting old c.obj)
    (h : At c [.read 4 .connReadRespHandler] base out es)
    (ha : Allowed f.may (.read 4 Callback.connReadRespHandler) res) :
    Reading f old base out es (c.next client [] [] (.read 4 .connReadRespHandler) res) := by
  have h0 : At c [.read 4 .connReadRespHandler] (base ++ []) out es := by simpa using h
  cases res with
  | error e d =>
    have he := f.failed e ha.1
    refine failed_next f old base out es c _ _ _ (store c.obj d .connReadRespHandler) e []
      ⟨hr.handler,hr.connResp⟩ h0 he ?_ (.inl ha.1)
    simp [client, run, connReadRespHandler, Op.callback, Result.code, he]
  | ok d =>
    obtain ⟨v,rep,rsv,atyp,rfl⟩ := List.length_eq_four.mp ha
    have hd := header_done c.obj _ v rep rsv atyp rfl
    set s : Session := { c.obj with connReadPacketHeader := ⟨[v,rep,rsv,atyp],rfl⟩ }
    have hs : Awaiting old s := ⟨hr.handler,hr.connResp⟩
    have hbad := failed_next f old base out es c _ _ (.ok [v,rep,rsv,atyp]) s
      (makeErrorCode .protocolViolation) [] hs h0 (makeErrorCode_failed _)
    have hwhy := malformed_header v rep rsv atyp
    split_ifs at hd with hok h1 h3 h4
    · obtain ⟨rfl,hrep⟩ := hok
      subst h1
      obtain ⟨hobj,hn⟩ := at_start client c _ _ _ _ _ _ _ h hd
      exact .address rep rsv 1 [] 6 _ hrep (.inl rfl) (fun a h => .ipv4 a h)
        (hobj ▸ hs) (by rw [hobj]) (by simpa using hn)
    · obtain ⟨rfl,hrep⟩ := hok
      subst h3
      obtain ⟨hobj,hn⟩ := at_start client c _ _ _ _ _ _ _ h hd
      exact .length rep rsv hrep (hobj ▸ hs) (by rw [hobj]) (by simpa using hn)
    · obtain ⟨rfl,hrep⟩ := hok
      subst h4
      obtain ⟨hobj,hn⟩ := at_start client c _ _ _ _ _ _ _ h hd
      exact .address rep rsv 4 [] 18 _ hrep (.inr (.inr rfl)) (fun a h => .ipv6 a h)
        (hobj ▸ hs) (by rw [hobj]) (by simpa using hn)
    · exact hbad hd (.inr (hwhy (by simp [h1, h3, h4])))
    · exact hbad hd (.inr (hwhy fun h => hok ⟨h.1,h.2.1⟩))

theorem length_next (f : Faults) (old : ConnectResponse) (base out : Bytes) (es : List Event)
    (c : ClientState) (rep rsv : UInt8) (hrep : rep ≤ 8) (res : Result UInt8 ErrorCode)
    (hr : Awaiting old c.obj) (hh : c.obj.connReadPacketHeader.bytes = [5,rep,rsv,3])
    (h : At c [.read 1 .connReadRespAddrDomainnameHandler] (base ++ [5,rep,rsv,3]) out es)
    (ha : Allowed f.may (.read 1 Callback.connReadRespAddrDomainnameHandler) res) :
    Reading f old base out es
      (c.next client [] [] (.read 1 .connReadRespAddrDomainnameHandler) res) := by
  cases res with
  | error e d =>
    have he := f.failed e ha.1
    refine failed_next f old base out es c _ _ _ (store c.obj d .connReadRespAddrDomainnameHandler)
      e [5,rep,rsv,3] ⟨hr.handler,hr.connResp⟩ h he ?_ (.inl ha.1)
    simp [client, run, connReadRespAddrDomainnameHandler, Op.callback, Result.code, he]
  | ok d =>
    obtain ⟨len,rfl⟩ := List.length_eq_one_iff.mp ha
    set s : Session := store c.obj [len] .connReadRespAddrDomainnameHandler with hs
    -- the length octet is the first of the array that the read was started on
    have hlen : s.connReadPacketAddr[0] = len := Buffer.fill_first _ _ _ (by simp)
    have hd : client.done (.read 1 .connReadRespAddrDomainnameHandler) (.ok [len]) c.obj =
        (s,[.start (.read (len.toNat+2) .connReadRespAddrDomainnameStrHandler)]) := by
      change connReadRespAddrDomainnameHandler s .noError = _
      rw [connReadRespAddrDomainnameHandler, if_neg ErrorCode.noError_failed,
        connReadRespAddrDomainnameStr, hlen]
    obtain ⟨hobj,hn⟩ := at_start client c _ _ _ _ _ _ _ h hd
    refine .address rep rsv 3 [len] _ _ hrep (.inr (.inl rfl)) (fun a h => .domainname len a h)
      ?_ ?_ (by simpa using hn)
    · rw [hobj]; exact ⟨hr.handler,hr.connResp⟩
    · rw [hobj]; exact hh

theorem address_next (f : Faults) (old : ConnectResponse) (base out : Bytes) (es : List Event)
    (c : ClientState) (rep rsv atyp : UInt8) (pre : Bytes) (n : ℕ) (k : Callback)
    (hrep : rep ≤ 8) (hk : Completes k)
    (hf : ∀ a : Bytes, a.length = n → AddressField atyp (pre ++ a))
    (res : Result UInt8 ErrorCode) (hr : Awaiting old c.obj)
    (hh : c.obj.connReadPacketHeader.bytes = [5,rep,rsv,atyp])
    (h : At c [.read n k] (base ++ [5,rep,rsv,atyp] ++ pre) out es)
    (ha : Allowed f.may (.read n k) res) :
    Reading f old base out es (c.next client [] [] (.read n k) res) := by
  obtain ⟨hrun,hheader,hhandler,hresp⟩ := completes_run k hk c.obj res.data (res.code .noError)
  have hs : Awaiting old (store c.obj res.data k) :=
    ⟨hhandler.trans hr.handler,hresp.trans hr.connResp⟩
  have hd : client.done (.read n k) res c.obj =
      connReadRespAddrComplete (store c.obj res.data k) (res.code .noError) := hrun
  cases res with
  | error e d =>
    refine failed_next f old base out es c _ _ _ (store c.obj d k) e ([5,rep,rsv,atyp] ++ pre) hs
      (by simpa using h) (f.failed e ha.1) ?_ (.inl ha.1)
    rw [hd, connReadRespAddrComplete]
    exact if_pos (f.failed e ha.1)
  | ok d =>
    have hrepAt : (store c.obj d k).connReadPacketHeader[1] = rep := by
      change (store c.obj d k).connReadPacketHeader.bytes.getD 1 0 = rep
      simp [show (store c.obj d k).connReadPacketHeader.bytes = _ from hheader ▸ hh]
    have hm : Reply rep ([5,rep,rsv,atyp] ++ (pre ++ d)) := ⟨rsv,atyp,_,hrep,hf d ha⟩
    have hcall := hs.handler
    simp only [Result.code, connReadRespAddrComplete, ErrorCode.noError_failed, if_false,
      hrepAt, Result.data] at hd
    split_ifs at hd with h0
    · rw [call_readResp _ _ (by exact hcall)] at hd
      obtain ⟨hobj,hn⟩ := at_emit client c _ _ _ _ _ _ _ h hd
      exact .answered rep _ hm (by rw [hobj]) (by simpa using hn)
    · rw [call_readResp _ _ (by exact hcall)] at hd
      obtain ⟨hobj,hn⟩ := at_emit client c _ _ _ _ _ _ _ h hd
      refine .answered rep _ hm ?_ (by simpa using hn)
      rw [hobj, not_not.mp h0]
      rfl

theorem reading_next (f : Faults) (old : ConnectResponse) (base out : Bytes) (es : List Event)
    (c : ClientState) (op : Op UInt8 Callback) (res : Result UInt8 ErrorCode)
    (h : Reading f old base out es c) (hp : c.pending = [op])
    (ha : Allowed f.may op res) :
    Reading f old base out es (c.next client [] [] op res) := by
  cases h with
  | header hr h =>
    obtain rfl := List.singleton_inj.mp (hp.symm.trans h.pending)
    exact header_next f old base out es c res hr h ha
  | length rep rsv hrep hr hh h =>
    obtain rfl := List.singleton_inj.mp (hp.symm.trans h.pending)
    exact length_next f old base out es c rep rsv hrep res hr hh h ha
  | address rep rsv atyp pre n k hrep hk hf hr hh h =>
    obtain rfl := List.singleton_inj.mp (hp.symm.trans h.pending)
    exact address_next f old base out es c rep rsv atyp pre n k hrep hk hf res hr hh h ha
  | answered rep m hm hresp h => exact absurd (hp.symm.trans h.pending) (by simp)
  | failed err t herr hresp why h => exact absurd (hp.symm.trans h.pending) (by simp)

theorem writing_copy (creds : Credentials) (dst : Destination) (old : ConnectResponse)
    (s : Session) (h : Writing creds dst old s) (buf : Bytes) (packet : Buffer 2) :
    Writing creds dst old { s with writeBuf := buf, authReadPacket := packet } :=
  ⟨h.creds,h.dst,h.handler,h.reader,h.pointer,h.connResp⟩

theorem method_done (s t : Session) (creds : Credentials) (v m : UInt8) (hc : s.creds = creds)
    (ht : t = { s with authReadPacket := ⟨[v,m],rfl⟩ }) :
    client.done (.read 2 .authReadRespHandler) (.ok [v,m]) s =
      if v ≠ 5 then callAndClearHandler t .writeReq (makeErrorCode .protocolViolation)
      else if m = 0xff then callAndClearHandler t .writeReq (makeErrorCode .badAuthMethod)
      else if creds.empty then
        if m ≠ 0 then callAndClearHandler t .writeReq (makeErrorCode .protocolViolation)
        else connWriteReq t
      else if m ≠ 2 then callAndClearHandler t .writeReq (makeErrorCode .protocolViolation)
      else authWriteCreds t := by
  have hfill : s.authReadPacket.fill [v,m] = ⟨[v,m],rfl⟩ := Buffer.fill_eq (n := 2) _ _ rfl
  change authReadRespHandler
    { s with authReadPacket := s.authReadPacket.fill [v,m] } .noError = _
  rw [hfill, ← ht, authReadRespHandler, if_neg ErrorCode.noError_failed]
  subst ht hc
  rfl

theorem status_done (s t : Session) (v st : UInt8)
    (ht : t = { s with authReadPacket := ⟨[v,st],rfl⟩ }) :
    client.done (.read 2 .authReadCredsReplyHandler) (.ok [v,st]) s =
      if v ≠ 5 then callAndClearHandler t .writeReq (makeErrorCode .protocolViolation)
      else if st ≠ 0 then callAndClearHandler t .writeReq (makeErrorCode .authFailed)
      else connWriteReq t := by
  have hfill : s.authReadPacket.fill [v,st] = ⟨[v,st],rfl⟩ := Buffer.fill_eq (n := 2) _ _ rfl
  change authReadCredsReplyHandler
    { s with authReadPacket := s.authReadPacket.fill [v,st] } .noError = _
  rw [hfill, ← ht, authReadCredsReplyHandler, if_neg ErrorCode.noError_failed]
  subst ht
  rfl

/-- Both ways to the request start the same write. -/
theorem request_next (f : Faults) (creds : Credentials) (dst : Destination) (old : ConnectResponse)
    (hacc : Accepted creds dst) (c : ClientState) (op : Op UInt8 Callback)
    (res : Result UInt8 ErrorCode) (s : Session) (t u : Bytes) (hw : Writing creds dst old s)
    (h : At c [op] t u []) (hd : client.done op res c.obj = connWriteReq s)
    (ht : t ++ op.received res.data = authAnswer creds)
    (hu : u ++ op.handed res.data = preamble creds) :
    Asking f creds dst old (c.next client [] [] op res) := by
  have hm := connWriteReq_eq s dst hw.dst hacc.hostname
  obtain ⟨hobj,hn⟩ := at_start client c op _ t u [] res _ h (hd.trans hm)
  rw [ht, hu] at hn
  exact .request (hobj ▸ writing_copy creds dst old s hw _ s.authReadPacket) hn

theorem greet_next (f : Faults) (creds : Credentials) (dst : Destination) (old : ConnectResponse)
    (c : ClientState) (res : Result UInt8 ErrorCode) (hw : Writing creds dst old c.obj)
    (h : At c [.write (greeting creds) .authWriteReqHandler] [] [] [])
    (ha : Allowed f.may (.write (greeting creds) Callback.authWriteReqHandler) res) :
    Asking f creds dst old
      (c.next client [] [] (.write (greeting creds) .authWriteReqHandler) res) := by
  have hs := writing_copy creds dst old c.obj hw [] c.obj.authReadPacket
  cases res with
  | error e d =>
    have he := f.failed e ha.1
    refine refused_next f creds dst old c _ _ _ e [] [] hs h he ?_ (.greeting ha.2 (by simp))
      (.inl ha.1)
    exact if_pos he
  | ok d =>
    obtain rfl : d = greeting creds := ha
    obtain ⟨hobj,hn⟩ := at_start client c _ (.read 2 .authReadRespHandler) [] [] []
      (.ok (greeting creds)) { c.obj with writeBuf := [] } h rfl
    exact .method (hobj ▸ hs) (by simpa using hn)

theorem method_next (f : Faults) (creds : Credentials) (dst : Destination) (old : ConnectResponse)
    (hacc : Accepted creds dst) (c : ClientState) (res : Result UInt8 ErrorCode)
    (hw : Writing creds dst old c.obj)
    (h : At c [.read 2 .authReadRespHandler] [] (greeting creds) [])
    (ha : Allowed f.may (.read 2 Callback.authReadRespHandler) res) :
    Asking f creds dst old (c.next client [] [] (.read 2 .authReadRespHandler) res) := by
  cases res with
  | error e d =>
    have he := f.failed e ha.1
    refine refused_next f creds dst old c _ _ _ e [] (greeting creds)
      (writing_copy creds dst old c.obj hw c.obj.writeBuf (c.obj.authReadPacket.fill d)) h he ?_
      (.greeting (by simp) (by simp)) (.inl ha.1)
    exact if_pos he
  | ok d =>
    obtain ⟨v,m,rfl⟩ := List.length_eq_two.mp ha
    have hd := method_done c.obj _ creds v m hw.creds rfl
    have hs := writing_copy creds dst old c.obj hw c.obj.writeBuf ⟨[v,m],rfl⟩
    have hbad := fun err herr hd hno => refused_next f creds dst old c _ (.ok [v,m]) _ err []
      (greeting creds) hs h herr hd (.greeting (by simp) (by simp))
      (.inr (.inr (refuses_method creds v m hno)))
    split_ifs at hd with hv hm hc h0 h2
    · exact hbad _ (makeErrorCode_failed _) hd fun h => hv h.1
    · exact hbad _ (makeErrorCode_failed _) hd fun h => by cases hc : creds.empty <;> simp_all
    · exact hbad _ (makeErrorCode_failed _) hd fun h => h0 (by simpa [hc] using h.2)
    · obtain rfl := not_not.mp hv
      obtain rfl := not_not.mp h0
      exact request_next f creds dst old hacc c _ _ _ [] _ hs h hd (by simp [authAnswer, hc])
        (by simp [preamble, hc])
    · exact hbad _ (makeErrorCode_failed _) hd fun h => h2 (by simpa [hc] using h.2)
    · obtain rfl := not_not.mp hv
      obtain rfl := not_not.mp h2
      have hmsg := authWriteCreds_eq _ creds hs.creds hacc.username hacc.password
      obtain ⟨hobj,hn⟩ := at_start client c _ _ _ _ _ _ _ h (hd.trans hmsg)
      exact .credentials (by simpa using hc)
        (hobj ▸ writing_copy creds dst old _ hs _ ⟨[5,2],rfl⟩) (by simpa using hn)

theorem credentials_next (f : Faults) (creds : Credentials) (dst : Destination)
    (old : ConnectResponse) (c : ClientState) (res : Result UInt8 ErrorCode)
    (hc : creds.empty = false)
    (hw : Writing creds dst old c.obj)
    (h : At c [.write (credsMessage creds) .authWriteCredsHandler] [5,2] (greeting creds) [])
    (ha : Allowed f.may (.write (credsMessage creds) Callback.authWriteCredsHandler)
      res) :
    Asking f creds dst old
      (c.next client [] [] (.write (credsMessage creds) .authWriteCredsHandler) res) := by
  have hs := writing_copy creds dst old c.obj hw [] c.obj.authReadPacket
  cases res with
  | error e d =>
    have he := f.failed e ha.1
    refine refused_next f creds dst old c _ _ _ e _ _ hs h he ?_
      (.credentials hc (by simp) ha.2 (by simp)) (.inl ha.1)
    exact if_pos he
  | ok d =>
    obtain rfl : d = credsMessage creds := ha
    obtain ⟨hobj,hn⟩ := at_start client c _ (.read 2 .authReadCredsReplyHandler) _ _ _
      (.ok (credsMessage creds)) { c.obj with writeBuf := [] } h rfl
    exact .status hc (hobj ▸ hs) (by simpa [preamble, hc] using hn)

theorem status_next (f : Faults) (creds : Credentials) (dst : Destination) (old : ConnectResponse)
    (hacc : Accepted creds dst) (c : ClientState) (res : Result UInt8 ErrorCode)
    (hc : creds.empty = false) (hw : Writing creds dst old c.obj)
    (h : At c [.read 2 .authReadCredsReplyHandler] [5,2] (preamble creds) [])
    (ha : Allowed f.may (.read 2 Callback.authReadCredsReplyHandler) res) :
    Asking f creds dst old (c.next client [] [] (.read 2 .authReadCredsReplyHandler) res) := by
  have hord : ∀ d : Bytes, Ordered creds dst ([5,2] ++ d) (preamble creds ++ []) := by
    intro d
    rw [List.append_nil, preamble, if_neg (by simp [hc])]
    exact .credentials hc (by simp) (List.prefix_refl _) (by simp)
  cases res with
  | error e d =>
    have he := f.failed e ha.1
    refine refused_next f creds dst old c _ _ _ e _ _
      (writing_copy creds dst old c.obj hw c.obj.writeBuf (c.obj.authReadPacket.fill d)) h he ?_
      (hord d) (.inl ha.1)
    exact if_pos he
  | ok d =>
    obtain ⟨v,st,rfl⟩ := List.length_eq_two.mp ha
    have hd := status_done c.obj _ v st rfl
    have hs := writing_copy creds dst old c.obj hw c.obj.writeBuf ⟨[v,st],rfl⟩
    have hbad := fun err herr hd hno => refused_next f creds dst old c _ (.ok [v,st]) _ err _ _
      hs h herr hd (hord _) (.inr (.inr (refuses_status creds hc v st hno)))
    split_ifs at hd with hv h0
    · exact hbad _ (makeErrorCode_failed _) hd fun h => hv h.1
    · exact hbad _ (makeErrorCode_failed _) hd fun h => h0 h.2
    · obtain rfl := not_not.mp hv
      obtain rfl := not_not.mp h0
      exact request_next f creds dst old hacc c _ _ _ _ _ hs h hd (by simp [authAnswer, hc])
        (by simp)

theorem written_next (f : Faults) (creds : Credentials) (dst : Destination) (old : ConnectResponse)
    (c : ClientState) (res : Result UInt8 ErrorCode) (hw : Writing creds dst old c.obj)
    (h : At c [.write (connectRequest dst) .connWriteReqHandler]
      (authAnswer creds) (preamble creds) [])
    (ha : Allowed f.may (.write (connectRequest dst) Callback.connWriteReqHandler)
      res) :
    Asking f creds dst old
      (c.next client [] [] (.write (connectRequest dst) .connWriteReqHandler) res) := by
  have hs := writing_copy creds dst old c.obj hw [] c.obj.authReadPacket
  cases res with
  | error e d =>
    have he := f.failed e ha.1
    refine refused_next f creds dst old c _ _ _ e _ _ hs h he ?_
      (.request (by simp) ha.2 (by simp)) (.inl ha.1)
    exact if_pos he
  | ok d =>
    obtain rfl : d = connectRequest dst := ha
    have hd : client.done (.write (connectRequest dst) .connWriteReqHandler)
        (.ok (connectRequest dst)) c.obj =
        callAndClearHandler { c.obj with writeBuf := [] } .writeReq .noError := rfl
    obtain ⟨hobj,hn⟩ := at_emit client c _ _ _ _ _ _ _ h
      (hd.trans (call_writeReq _ _ hs.handler))
    exact .written (by rw [hobj]; exact ⟨hs.reader,hs.pointer⟩) (by rw [hobj]; exact hs.connResp)
      (by simpa using hn)

theorem asking_next (f : Faults) (creds : Credentials) (dst : Destination) (old : ConnectResponse)
    (hacc : Accepted creds dst) (c : ClientState) (op : Op UInt8 Callback)
    (res : Result UInt8 ErrorCode) (h : Asking f creds dst old c) (hp : c.pending = [op])
    (ha : Allowed f.may op res) : Asking f creds dst old (c.next client [] [] op res) := by
  cases h with
  | greet hw h =>
    obtain rfl := List.singleton_inj.mp (hp.symm.trans h.pending)
    exact greet_next f creds dst old c res hw h ha
  | method hw h =>
    obtain rfl := List.singleton_inj.mp (hp.symm.trans h.pending)
    exact method_next f creds dst old hacc c res hw h ha
  | credentials hc hw h =>
    obtain rfl := List.singleton_inj.mp (hp.symm.trans h.pending)
    exact credentials_next f creds dst old c res hc hw h ha
  | status hc hw h =>
    obtain rfl := List.singleton_inj.mp (hp.symm.trans h.pending)
    exact status_next f creds dst old hacc c res hc hw h ha
  | request hw h =>
    obtain rfl := List.singleton_inj.mp (hp.symm.trans h.pending)
    exact written_next f creds dst old c res hw h ha
  | written hr hresp h => exact absurd (hp.symm.trans h.pending) (by simp)
  | refused err t u herr ho hresp why h => exact absurd (hp.symm.trans h.pending) (by simp)

theorem phase_next (f : Faults) (creds : Credentials) (dst : Destination) (old : ConnectResponse)
    (hacc : Accepted creds dst) (c : ClientState) (op : Op UInt8 Callback)
    (res : Result UInt8 ErrorCode) (h : Phase f creds dst old c) (hp : c.pending = [op])
    (ha : Allowed f.may op res) : Phase f creds dst old (c.next client [] [] op res) := by
  cases h with
  | asking h => exact .asking (asking_next f creds dst old hacc c op res h hp ha)
  | reading h => exact .reading (reading_next f old _ _ _ c op res h hp ha)

/-- No handler is set and no variable of the user is referred to. -/
structure Idle (s : Session) : Prop where
  writer : s.userWriteReqHandler = false
  reader : s.userReadRespHandler = false
  pointer : s.puserConnResp = false

/-- A request that does not fit is refused before anything is written. -/
theorem asking_begun (f : Faults) (s : Session) (hs : Idle s) (dst : Destination) :
    Asking f s.creds dst s.connResp (Conf.begun (writeConnectRequest s dst)) := by
  unfold writeConnectRequest
  split_ifs with hc hh
  · exact .refused (makeErrorCode .credsTooLong) [] [] (makeErrorCode_failed _)
      (.greeting List.nil_prefix (by simp)) rfl
      (.inr (.inl fun h => by have := h.username; have := h.password; omega)) (at_begun _)
  · exact .refused (makeErrorCode .hostnameTooLong) [] [] (makeErrorCode_failed _)
      (.greeting List.nil_prefix (by simp)) rfl
      (.inr (.inl fun h => absurd (h.hostname hh.1) (by omega))) (at_begun _)
  · rw [authWriteReq_eq]
    exact .greet ⟨rfl,rfl,rfl,hs.reader,hs.pointer,rfl⟩ (at_begun _)

theorem readConnectResponse_eq (s : Session) (hr : s.userReadRespHandler = false)
    (hp : s.puserConnResp = false) :
    readConnectResponse s = ({ s with puserConnResp := true, userReadRespHandler := true },
      [.start (.read 4 .connReadRespHandler)]) := by
  simp [readConnectResponse, assertThat, hr, hp, connReadResp]

theorem reading_invoke (f : Faults) (base out : Bytes) (es : List Event) (c : ClientState)
    (hr : c.obj.userReadRespHandler = false) (hp : c.obj.puserConnResp = false)
    (h : At c [] base out es) :
    Reading f c.obj.connResp base out es (c.invoke (readConnectResponse c.obj)) := by
  have hn := at_invoke c (readConnectResponse c.obj) base out es h
  rw [readConnectResponse_eq c.obj hr hp] at hn ⊢
  exact .header ⟨rfl,rfl⟩ (by simpa using hn)

/-- The response is read once the request has been reported as written. -/
def Due (es : List Event) : Prop := es = [.call .writeReq .noError]

/-- A client on a socket that may fail, used as a hop uses it. -/
abbrev Dialogue (f : Faults) (inp : Bytes) : ClientWire → ClientWire → Prop :=
  Served client f.may inp Due readConnectResponse

/-- The same dialogue, and whether the response has been asked for. -/
abbrev Recall (f : Faults) (inp : Bytes) : ClientWire × Bool → ClientWire × Bool → Prop :=
  Recorded client f.may inp Due readConnectResponse

def start (s : Session) (dst : Destination) : ClientWire :=
  Wire.begun (writeConnectRequest s dst)

theorem writeConnectRequest_single (s : Session) (dst : Destination) :
    (started (writeConnectRequest s dst).2).length ≤ 1 := by
  unfold writeConnectRequest
  split_ifs <;> simp [authWriteReq_eq]

end ProxySwiss.ClientSocks5Run
