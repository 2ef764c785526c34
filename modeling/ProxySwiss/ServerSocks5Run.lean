import ProxySwiss.StreamRun
import ProxySwiss.ServerSessionSocks5
import ProxySwiss.Socks5Messages

/-!
# Runs of the SOCKS5 server

The phases of reading a request and of writing one response, for every client
and every failure of the socket. The address handlers are described by what
they store for the octets that were received.
-/

set_option autoImplicit false

namespace ProxySwiss.ServerSocks5Run
open Memory TransitionSystem CallbackObject StreamObject Socks5 ServerSessionSocks5

abbrev ServerState := State Session Callback UInt8 ErrorCode Event
abbrev ServerWire := Wire Session Callback UInt8 Event

/-- What is stored for an address field. A hostname leaves the address of the
destination as it was, and the port behind sixteen octets is not swapped. -/
inductive Stored (old : Destination) : UInt8 → Bytes → Destination → Prop
  | ipv4 (a b c d p q : UInt8) :
      Stored old 1 [a,b,c,d,p,q] ⟨[],.v4 (ofLe32 d c b a),ofLe16 q p⟩
  | domainname (len : UInt8) (name : Bytes) (p q : UInt8) (h : name.length = len.toNat) :
      Stored old 3 (len::(name ++ [p,q])) ⟨name,old.ipAddress,ofLe16 q p⟩
  | ipv6 (a : Buffer 16) (p q : UInt8) :
      Stored old 4 (a.bytes ++ [p,q]) ⟨[],.v6 a,ofLe16 p q⟩

/-- A complete dialogue of the client's part. -/
inductive Request (old dst : Destination) : Bytes → Prop
  | mk (g : Bytes) (rsv atyp : UInt8) (field : Bytes) (hg : Offer g)
      (hs : Stored old atyp field dst) : Request old dst (g ++ [5,1,rsv,atyp] ++ field)

/-- The events of a successful read: the assertion expects a hostname exactly
for the address type of hostnames. -/
def report (atyp : UInt8) (dst : Destination) : List Event :=
  (if dst.usingHostname = (atyp == 3) then [] else [.assertFailed]) ++ [.call .readReq .noError]

def response (connResp : ConnectResponse) : Bytes :=
  [5,majorCodeToRep connResp.major,0,1,0,0,0,0,0,0]

/-- No octet behind the greeting is read before the answer to it is written. -/
inductive Ordered : Bytes → Bytes → Prop
  | greeting (t : Bytes)
      (h : t.length ≤ 2 ∨ ∃ v n ms, t = [v,n] ++ ms ∧ ms.length ≤ UInt8.toNat n) : Ordered t []
  | reply (g u : Bytes) (hg : Offer g) (hu : u <+: [5,0]) : Ordered g u
  | request (g rest u : Bytes) (hg : Offer g) : Ordered (g ++ rest) ([5,0] ++ u)

/-- The object while `read_connect_request` is under way. -/
structure Listening (old : Destination) (s : Session) : Prop where
  handler : s.userReadReqHandler = true
  dst : s.userDst = old

/-- The phases of reading a request. -/
inductive Listens (f : Faults) (old : Destination) (c : ServerState) : Prop
  | greeting (hl : Listening old c.obj) (h : At c [.read 2 .authReadReqHandler] [] [] [])
  | methods (n : UInt8) (hl : Listening old c.obj)
      (hm : c.obj.readAuthMethods.length = n.toNat)
      (h : At c [.read n.toNat .authReadReqMethodsHandler] [5,n] [] [])
  | answer (g : Bytes) (hg : Offer g) (hl : Listening old c.obj)
      (h : At c [.write [5,0] .authWriteRespHandler] g [] [])
  | header (g : Bytes) (hg : Offer g) (hl : Listening old c.obj)
      (h : At c [.read 4 .connReadReqHandler] g [5,0] [])
  | ipv4 (g : Bytes) (rsv : UInt8) (hg : Offer g) (hl : Listening old c.obj)
      (h : At c [.read 6 .connReadReqAddrIpv4Handler] (g ++ [5,1,rsv,1]) [5,0] [])
  | length (g : Bytes) (rsv : UInt8) (hg : Offer g) (hl : Listening old c.obj)
      (h : At c [.read 1 .connReadReqAddrDomainnameHandler] (g ++ [5,1,rsv,3]) [5,0] [])
  | domainname (g : Bytes) (rsv len : UInt8) (hg : Offer g) (hl : Listening old c.obj)
      (hlen : c.obj.readAddr[0] = len)
      (h : At c [.read (len.toNat+2) .connReadReqAddrDomainnameStrHandler]
        (g ++ [5,1,rsv,3] ++ [len]) [5,0] [])
  | ipv6 (g : Bytes) (rsv : UInt8) (hg : Offer g) (hl : Listening old c.obj)
      (h : At c [.read 18 .connReadReqAddrIpv6Handler] (g ++ [5,1,rsv,4]) [5,0] [])
  | answered (g : Bytes) (rsv atyp : UInt8) (field : Bytes) (hg : Offer g)
      (hs : Stored old atyp field c.obj.userDst)
      (h : At c [] (g ++ [5,1,rsv,atyp] ++ field) [5,0] (report atyp c.obj.userDst))
  | failed (err : ErrorCode) (t u : Bytes) (herr : err.failed) (ho : Ordered t u)
      (why : f.may err ∨ Unwelcome t) (h : At c [] t u [.call .readReq err])

inductive Phase (f : Faults) (old : Destination) (resp : ConnectResponse) (c : ServerState) : Prop
  | listens (h : Listens f old c)
  | responding (g : Bytes) (rsv atyp : UInt8) (field : Bytes) (hg : Offer g)
      (hs : Stored old atyp field c.obj.userDst) (hw : c.obj.userWriteRespHandler = true)
      (h : At c [.write (response resp) .writeConnectResponseHandler]
        (g ++ [5,1,rsv,atyp] ++ field) [5,0] (report atyp c.obj.userDst))
  | responded (g : Bytes) (rsv atyp : UInt8) (field : Bytes) (err : ErrorCode) (u : Bytes)
      (hg : Offer g) (hs : Stored old atyp field c.obj.userDst)
      (hu : u <+: response resp) (hok : ¬ err.failed → u = response resp)
      (h : At c [] (g ++ [5,1,rsv,atyp] ++ field) ([5,0] ++ u)
        (report atyp c.obj.userDst ++ [.call .writeResp err]))

theorem call_readReq (s : Session) (err : ErrorCode) (h : s.userReadReqHandler = true) :
    callAndClearHandler s .readReq err =
      ({ s with userReadReqHandler := false },[.emit (.call .readReq err)]) := by
  simp [callAndClearHandler, h]

theorem call_writeResp (s : Session) (err : ErrorCode) (h : s.userWriteRespHandler = true) :
    callAndClearHandler s .writeResp err =
      ({ s with userWriteRespHandler := false },[.emit (.call .writeResp err)]) := by
  simp [callAndClearHandler, h]

theorem failed_next (f : Faults) (old : Destination) (c : ServerState)
    (op : Op UInt8 Callback) (res : Result UInt8 ErrorCode) (s : Session) (err : ErrorCode)
    (t u : Bytes) (hs : s.userReadReqHandler = true) (h : At c [op] t u []) (herr : err.failed)
    (hd : server.done op res c.obj = callAndClearHandler s .readReq err)
    (ho : Ordered (t ++ op.received res.data) (u ++ op.handed res.data))
    (why : f.may err ∨ Unwelcome (t ++ op.received res.data)) :
    Listens f old (c.next server [] [] op res) := by
  have hn := (at_emit server c op t u [] res _ _ h (hd.trans (call_readReq s err hs))).2
  exact .failed err _ _ herr ho why hn

theorem offer_ordered (g rest : Bytes) (hg : Offer g) : Ordered (g ++ rest) ([5,0] ++ []) :=
  .request g rest [] hg

/-! What the callbacks make of the two parts of a greeting and of a header. -/

theorem hello_done (s t : Session) (v n : UInt8) (ht : t = { s with readAuthHdr := ⟨[v,n],rfl⟩ }) :
    server.done (.read 2 .authReadReqHandler) (.ok [v,n]) s =
      if v ≠ 5 then callAndClearHandler t .readReq (makeErrorCode .protocolViolation)
      else if n = 0 then callAndClearHandler t .readReq (makeErrorCode .protocolViolation)
      else ({ t with readAuthMethods := List.replicate n.toNat 0 },
        [.start (.read n.toNat .authReadReqMethodsHandler)]) := by
  have hfill : s.readAuthHdr.fill [v,n] = ⟨[v,n],rfl⟩ := Buffer.fill_eq (n := 2) _ _ rfl
  change authReadReqHandler { s with readAuthHdr := s.readAuthHdr.fill [v,n] } .noError = _
  rw [hfill, ← ht, authReadReqHandler, if_neg ErrorCode.noError_failed]
  subst ht
  rfl

/-- The vector was made for exactly as many methods as were received. -/
theorem methods_done (s : Session) (n : UInt8) (d : Bytes) (hd : d.length = n.toNat)
    (hm : s.readAuthMethods.length = n.toNat) :
    server.done (.read n.toNat .authReadReqMethodsHandler) (.ok d) s =
      if 0 ∉ d then callAndClearHandler { s with readAuthMethods := [] } .readReq
        (makeErrorCode .protocolViolation)
      else authWriteResp { s with readAuthMethods := [] } := by
  have hcopy : d ++ s.readAuthMethods.drop d.length = d := by
    rw [List.drop_of_length_le (by omega), List.append_nil]
  change authReadReqMethodsHandler { s with
    readAuthMethods := d ++ s.readAuthMethods.drop d.length } .noError = _
  rw [hcopy, authReadReqMethodsHandler, if_neg ErrorCode.noError_failed]

theorem header_done (s t : Session) (v cmd rsv atyp : UInt8)
    (ht : t = { s with readConnHdr := ⟨[v,cmd,rsv,atyp],rfl⟩ }) :
    server.done (.read 4 .connReadReqHandler) (.ok [v,cmd,rsv,atyp]) s =
      if v ≠ 5 then callAndClearHandler t .readReq (makeErrorCode .protocolViolation)
      else if cmd ≠ 1 then callAndClearHandler t .readReq (makeErrorCode .unsupportedCommand)
      else if atyp = 1 then connReadReqAddrIpv4 t
      else if atyp = 3 then connReadReqAddrDomainname t
      else if atyp = 4 then connReadReqAddrIpv6 t
      else callAndClearHandler t .readReq (makeErrorCode .protocolViolation) := by
  have hfill : s.readConnHdr.fill [v,cmd,rsv,atyp] = ⟨[v,cmd,rsv,atyp],rfl⟩ :=
    Buffer.fill_eq (n := 4) _ _ rfl
  change connReadReqHandler
    { s with readConnHdr := s.readConnHdr.fill [v,cmd,rsv,atyp] } .noError = _
  rw [hfill, ← ht, connReadReqHandler, if_neg ErrorCode.noError_failed]
  subst ht
  rfl

theorem greeting_next (f : Faults) (old : Destination) (c : ServerState)
    (res : Result UInt8 ErrorCode) (hl : Listening old c.obj)
    (h : At c [.read 2 .authReadReqHandler] [] [] [])
    (ha : Allowed f.may (.read 2 Callback.authReadReqHandler) res) :
    Listens f old (c.next server [] [] (.read 2 .authReadReqHandler) res) := by
  cases res with
  | error e d =>
    have hlen : d.length ≤ 2 := ha.2
    have he := f.failed e ha.1
    apply failed_next f old c _ _ (store c.obj d .authReadReqHandler) e [] [] hl.handler h he
    · exact if_pos he
    · exact .greeting _ (.inl hlen)
    · exact .inl ha.1
  | ok d =>
    obtain ⟨v,n,rfl⟩ := List.length_eq_two.mp ha
    have hd := hello_done c.obj _ v n rfl
    set s : Session := { c.obj with readAuthHdr := ⟨[v,n],rfl⟩ }
    have hbad := failed_next f old c _ (.ok [v,n]) s (makeErrorCode .protocolViolation) [] []
      hl.handler h (makeErrorCode_failed _)
    split_ifs at hd with hv h0
    · exact hbad hd (.greeting _ (.inl (Nat.le_refl _))) (.inr (unwelcome_hello v n (.inl hv)))
    · exact hbad hd (.greeting _ (.inl (Nat.le_refl _))) (.inr (unwelcome_hello v n (.inr h0)))
    · obtain rfl := not_not.mp hv
      obtain ⟨hobj,hn⟩ := at_start server c _ _ _ _ _ _ _ h hd
      apply Listens.methods n
      · rw [hobj]; exact ⟨hl.handler,hl.dst⟩
      · rw [hobj]; simp
      · simpa using hn

theorem methods_next (f : Faults) (old : Destination) (c : ServerState) (n : UInt8)
    (res : Result UInt8 ErrorCode) (hl : Listening old c.obj)
    (hm : c.obj.readAuthMethods.length = n.toNat)
    (h : At c [.read n.toNat .authReadReqMethodsHandler] [5,n] [] [])
    (ha : Allowed f.may (.read n.toNat Callback.authReadReqMethodsHandler) res) :
    Listens f old (c.next server [] [] (.read n.toNat .authReadReqMethodsHandler) res) := by
  have hpart : res.data.length ≤ n.toNat := allowed_part _ _ _ ha
  have hord : Ordered ([5,n] ++ res.data) ([] ++ []) :=
    .greeting _ (.inr ⟨5,n,res.data,rfl,hpart⟩)
  cases res with
  | error e d =>
    have he := f.failed e ha.1
    apply failed_next f old c _ _ { c.obj with readAuthMethods := [] } e [5,n] [] hl.handler h
      he
    · exact if_pos he
    · exact hord
    · exact .inl ha.1
  | ok d =>
    have hlen : d.length = n.toNat := ha
    have hd := methods_done c.obj n d hlen hm
    split_ifs at hd with h0
    · obtain ⟨hobj,hn⟩ := at_start server c _ (.write [5,0] .authWriteRespHandler) _ _ _ _ _ h hd
      apply Listens.answer _ (.mk n d hlen h0)
      · rw [hobj]; exact ⟨hl.handler,hl.dst⟩
      · simpa using hn
    · exact failed_next f old c _ (.ok d) _ _ [5,n] [] (by exact hl.handler) h
        (makeErrorCode_failed _) hd hord (.inr (unwelcome_methods n d hlen h0))

theorem answer_next (f : Faults) (old : Destination) (c : ServerState) (g : Bytes)
    (hg : Offer g) (res : Result UInt8 ErrorCode) (hl : Listening old c.obj)
    (h : At c [.write [5,0] .authWriteRespHandler] g [] [])
    (ha : Allowed f.may (.write [5,0] Callback.authWriteRespHandler) res) :
    Listens f old (c.next server [] [] (.write [5,0] .authWriteRespHandler) res) := by
  cases res with
  | error e d =>
    have he := f.failed e ha.1
    apply failed_next f old c _ _ c.obj e g [] hl.handler h he
    · exact if_pos he
    · simpa using Ordered.reply g d hg ha.2
    · exact .inl ha.1
  | ok d =>
    obtain rfl : d = [5,0] := ha
    obtain ⟨hobj,hn⟩ := at_start server c _ (.read 4 .connReadReqHandler) g [] [] (.ok [5,0])
      c.obj h rfl
    exact .header g hg (hobj ▸ hl) (by simpa using hn)

theorem header_next (f : Faults) (old : Destination) (c : ServerState) (g : Bytes)
    (hg : Offer g) (res : Result UInt8 ErrorCode) (hl : Listening old c.obj)
    (h : At c [.read 4 .connReadReqHandler] g [5,0] [])
    (ha : Allowed f.may (.read 4 Callback.connReadReqHandler) res) :
    Listens f old (c.next server [] [] (.read 4 .connReadReqHandler) res) := by
  cases res with
  | error e d =>
    have he := f.failed e ha.1
    apply failed_next f old c _ _ (store c.obj d .connReadReqHandler) e g [5,0] hl.handler h he
    · exact if_pos he
    · exact offer_ordered g d hg
    · exact .inl ha.1
  | ok d =>
    obtain ⟨v,cmd,rsv,atyp,rfl⟩ := List.length_eq_four.mp ha
    have hd := header_done c.obj _ v cmd rsv atyp rfl
    set s : Session := { c.obj with readConnHdr := ⟨[v,cmd,rsv,atyp],rfl⟩ }
    have hls : Listening old s := ⟨hl.handler,hl.dst⟩
    have hbad := fun err herr hd hno => failed_next f old c _ (.ok [v,cmd,rsv,atyp]) s err g
      [5,0] hl.handler h herr hd (offer_ordered g _ hg)
      (.inr (unwelcome_header g v cmd rsv atyp hg hno))
    split_ifs at hd with hv hc h1 h3 h4
    · exact hbad _ (makeErrorCode_failed _) hd fun h => hv h.1
    · exact hbad _ (makeErrorCode_failed _) hd fun h => hc h.2.1
    · obtain rfl := not_not.mp hv
      obtain rfl := not_not.mp hc
      subst h1
      obtain ⟨hobj,hn⟩ := at_start server c _ _ _ _ _ _ _ h hd
      exact .ipv4 g rsv hg (hobj ▸ hls) (by simpa using hn)
    · obtain rfl := not_not.mp hv
      obtain rfl := not_not.mp hc
      subst h3
      obtain ⟨hobj,hn⟩ := at_start server c _ _ _ _ _ _ _ h hd
      exact .length g rsv hg (hobj ▸ hls) (by simpa using hn)
    · obtain rfl := not_not.mp hv
      obtain rfl := not_not.mp hc
      subst h4
      obtain ⟨hobj,hn⟩ := at_start server c _ _ _ _ _ _ _ h hd
      exact .ipv6 g rsv hg (hobj ▸ hls) (by simpa using hn)
    · exact hbad _ (makeErrorCode_failed _) hd (by simp [h1, h3, h4])

theorem length_next (f : Faults) (old : Destination) (c : ServerState) (g : Bytes)
    (rsv : UInt8) (hg : Offer g) (res : Result UInt8 ErrorCode) (hl : Listening old c.obj)
    (h : At c [.read 1 .connReadReqAddrDomainnameHandler] (g ++ [5,1,rsv,3]) [5,0] [])
    (ha : Allowed f.may (.read 1 Callback.connReadReqAddrDomainnameHandler) res) :
    Listens f old (c.next server [] [] (.read 1 .connReadReqAddrDomainnameHandler) res) := by
  cases res with
  | error e d =>
    have he := f.failed e ha.1
    apply failed_next f old c _ _ (store c.obj d .connReadReqAddrDomainnameHandler) e _ _
      hl.handler h he
    · exact if_pos he
    · rw [List.append_assoc]
      exact offer_ordered g _ hg
    · exact .inl ha.1
  | ok d =>
    obtain ⟨len,rfl⟩ := List.length_eq_one_iff.mp ha
    set s : Session := store c.obj [len] .connReadReqAddrDomainnameHandler with hs
    have hlen : s.readAddr[0] = len := Buffer.fill_first _ _ _ (by simp)
    have hd : server.done (.read 1 .connReadReqAddrDomainnameHandler) (.ok [len]) c.obj =
        (s,[.start (.read (len.toNat+2) .connReadReqAddrDomainnameStrHandler)]) := by
      change connReadReqAddrDomainnameHandler s .noError = _
      rw [connReadReqAddrDomainnameHandler, if_neg ErrorCode.noError_failed,
        connReadReqAddrDomainnameStr, hlen]
    obtain ⟨hobj,hn⟩ := at_start server c _ _ _ _ _ _ _ h hd
    apply Listens.domainname g rsv len hg
    · rw [hobj]; exact ⟨hl.handler,hl.dst⟩
    · rw [hobj]; exact hlen
    · simpa using hn

theorem deliver_eq (s : Session) (asserted : Bool) (h : s.userReadReqHandler = true) :
    deliver s asserted = ({ s with userReadReqHandler := false, puserDst := false },
      (if asserted then [] else [.emit .assertFailed]) ++ [.emit (.call .readReq .noError)]) := by
  cases asserted <;> simp [deliver, call_readReq s _ h, assertThat]

/-- An address handler that stored `dst` reports success, whatever it asserts. -/
theorem answered_next (f : Faults) (old : Destination) (c : ServerState)
    (n : ℕ) (k : Callback) (s : Session) (asserted : Bool) (g : Bytes) (rsv atyp : UInt8)
    (pre d : Bytes) (hg : Offer g) (hs : Stored old atyp (pre ++ d) s.userDst)
    (ha : asserted = decide (s.userDst.usingHostname = (atyp == 3)))
    (hl : s.userReadReqHandler = true)
    (h : At c [.read n k] (g ++ [5,1,rsv,atyp] ++ pre) [5,0] [])
    (hd : server.done (.read n k) (.ok d) c.obj = deliver s asserted) :
    Listens f old (c.next server [] [] (.read n k) (.ok d)) := by
  have hn := at_next server c (.read n k) _ _ _ (.ok d) h
  have hobj : (c.next server [] [] (.read n k) (.ok d)).obj.userDst = s.userDst := by
    change (server.done (.read n k) (.ok d) c.obj).1.userDst = _
    rw [hd, deliver_eq s asserted hl]
  rw [hd, deliver_eq s asserted hl] at hn
  apply Listens.answered g rsv atyp (pre ++ d) hg
  · rw [hobj]; exact hs
  · rw [hobj, report]
    by_cases hx : s.userDst.usingHostname = (atyp == 3)
    · simpa [ha, hx] using hn
    · simpa [ha, hx] using hn

/-- A read of an address that fails, in any of the three forms. -/
theorem address_failed (f : Faults) (old : Destination) (c : ServerState) (n : ℕ)
    (k : Callback) (g m : Bytes) (e : ErrorCode) (d : Bytes) (hg : Offer g)
    (hl : (store c.obj d k).userReadReqHandler = true) (h : At c [.read n k] (g ++ m) [5,0] [])
    (he : f.may e) (hd : server.done (.read n k) (.error e d) c.obj =
      callAndClearHandler (store c.obj d k) .readReq e) :
    Listens f old (c.next server [] [] (.read n k) (.error e d)) := by
  apply failed_next f old c _ _ _ e _ _ hl h (f.failed e he) hd
  · rw [List.append_assoc]
    exact offer_ordered g _ hg
  · exact .inl he

theorem ipv4_next (f : Faults) (old : Destination) (c : ServerState) (g : Bytes)
    (rsv : UInt8) (hg : Offer g) (res : Result UInt8 ErrorCode) (hl : Listening old c.obj)
    (h : At c [.read 6 .connReadReqAddrIpv4Handler] (g ++ [5,1,rsv,1]) [5,0] [])
    (ha : Allowed f.may (.read 6 Callback.connReadReqAddrIpv4Handler) res) :
    Listens f old (c.next server [] [] (.read 6 .connReadReqAddrIpv4Handler) res) := by
  cases res with
  | error e d =>
    exact address_failed f old c _ _ g _ e d hg hl.handler h ha.1 (if_pos (f.failed e ha.1))
  | ok d =>
    match d, (ha : d.length = 6) with
    | [x,y,z,w,p,q], _ =>
      have haddr : (c.obj.readAddr.fill [x,y,z,w,p,q]).uint32At 0 = ofLe32 x y z w := by
        rw [Buffer.uint32At, Buffer.slice_fill _ _ _ _ (by simp) (by simp)]
        rfl
      have hport : (c.obj.readAddr.fill [x,y,z,w,p,q]).uint16At 4 = ofLe16 p q := by
        rw [Buffer.uint16At, Buffer.slice_fill _ _ _ _ (by simp) (by simp)]
        rfl
      apply answered_next f old c _ _ { c.obj with
        readAddr := c.obj.readAddr.fill [x,y,z,w,p,q]
        userDst := ⟨[],.v4 (ofLe32 w z y x),ofLe16 q p⟩ } true g rsv 1 [] _ hg
      · exact .ipv4 x y z w p q
      · rfl
      · exact hl.handler
      · simpa using h
      · change connReadReqAddrIpv4Handler
          { c.obj with readAddr := c.obj.readAddr.fill [x,y,z,w,p,q] } .noError = _
        simp only [connReadReqAddrIpv4Handler, ErrorCode.noError_failed, if_false, haddr, hport,
          htonl_ofLe32, htons_ofLe16]
        rfl

/-- The octets of an address form end in the two of the port. -/
theorem field_port (d : Bytes) (n : ℕ) (h : d.length = n+2) :
    ∃ a p q, d = a ++ [p,q] ∧ a.length = n := by
  obtain ⟨p,q,hpq⟩ := List.length_eq_two.mp (show (d.drop n).length = 2 by simp [h])
  exact ⟨d.take n,p,q,by rw [← hpq, List.take_append_drop],by simp [h]⟩

theorem domainname_next (f : Faults) (old : Destination) (c : ServerState)
    (g : Bytes) (rsv len : UInt8) (hg : Offer g) (res : Result UInt8 ErrorCode)
    (hl : Listening old c.obj) (hlen : c.obj.readAddr[0] = len)
    (h : At c [.read (len.toNat+2) .connReadReqAddrDomainnameStrHandler]
      (g ++ [5,1,rsv,3] ++ [len]) [5,0] [])
    (ha : Allowed f.may
      (.read (len.toNat+2) Callback.connReadReqAddrDomainnameStrHandler) res) :
    Listens f old
      (c.next server [] [] (.read (len.toNat+2) .connReadReqAddrDomainnameStrHandler) res) := by
  cases res with
  | error e d =>
    have h' := h
    rw [List.append_assoc] at h'
    exact address_failed f old c _ _ g _ e d hg hl.handler h' ha.1 (if_pos (f.failed e ha.1))
  | ok d =>
    obtain ⟨name,p,q,rfl,hname⟩ := field_port d len.toNat ha
    have hmax := len.toNat_lt
    have hfit : 1+(name ++ [p,q]).length ≤ 270 := by
      simp only [List.length_append, List.length_cons, List.length_nil]
      omega
    set b := c.obj.readAddr.fillAt 1 (name ++ [p,q])
    have hfirst : b[0] = len := (Buffer.fillAt_first _ _ _ hfit (by decide)).trans hlen
    have hstr : b.slice 1 len.toNat = name := by
      have := Buffer.slice_fillAt c.obj.readAddr 1 (name ++ [p,q]) 0 len.toNat hfit
        (by simp [hname])
      simpa [← hname] using this
    have hport : b.uint16At (len.toNat+1) = ofLe16 p q := by
      have := Buffer.slice_fillAt c.obj.readAddr 1 (name ++ [p,q]) len.toNat 2 hfit
        (by simp [hname])
      rw [Nat.add_comm, ← hname, List.drop_left, hname] at this
      rw [Buffer.uint16At, this]
      rfl
    apply answered_next f old c _ _ { c.obj with
      readAddr := b
      userDst := ⟨name,old.ipAddress,ofLe16 q p⟩ } _ g rsv 3 [len] _ hg
    · exact .domainname len name p q hname
    · rfl
    · exact hl.handler
    · exact h
    · change connReadReqAddrDomainnameStrHandler { c.obj with readAddr := b } .noError = _
      simp only [connReadReqAddrDomainnameStrHandler, ErrorCode.noError_failed, if_false, hfirst,
        hstr, hport, htons_ofLe16, hl.dst]
      cases Destination.usingHostname ⟨name,old.ipAddress,ofLe16 q p⟩ <;> rfl

theorem ipv6_next (f : Faults) (old : Destination) (c : ServerState) (g : Bytes)
    (rsv : UInt8) (hg : Offer g) (res : Result UInt8 ErrorCode) (hl : Listening old c.obj)
    (h : At c [.read 18 .connReadReqAddrIpv6Handler] (g ++ [5,1,rsv,4]) [5,0] [])
    (ha : Allowed f.may (.read 18 Callback.connReadReqAddrIpv6Handler) res) :
    Listens f old (c.next server [] [] (.read 18 .connReadReqAddrIpv6Handler) res) := by
  cases res with
  | error e d =>
    exact address_failed f old c _ _ g _ e d hg hl.handler h ha.1 (if_pos (f.failed e ha.1))
  | ok d =>
    obtain ⟨a,p,q,rfl,hlen⟩ := field_port d 16 ha
    set b := c.obj.readAddr.fill (a ++ [p,q])
    have haddr : addrArr b = ⟨a,hlen⟩ := by
      rw [addrArr, Buffer.slice_fill _ _ _ _ (by simp [hlen]) (by simp [hlen])]
      rw [List.drop_zero, List.take_left' hlen]
      exact Buffer.fill_eq _ _ hlen
    have hport : b.uint16At 16 = ofLe16 p q := by
      rw [Buffer.uint16At, Buffer.slice_fill _ _ _ _ (by simp [hlen]) (by simp [hlen]),
        ← hlen, List.drop_left]
      rfl
    apply answered_next f old c _ _ { c.obj with
      readAddr := b
      userDst := ⟨[],.v6 ⟨a,hlen⟩,ofLe16 p q⟩ } true g rsv 4 [] _ hg
    · exact .ipv6 ⟨a,hlen⟩ p q
    · rfl
    · exact hl.handler
    · simpa using h
    · change connReadReqAddrIpv6Handler { c.obj with readAddr := b } .noError = _
      simp only [connReadReqAddrIpv6Handler, ErrorCode.noError_failed, if_false, haddr, hport]
      rfl

theorem responding_next (f : Faults) (old : Destination) (resp : ConnectResponse) (c : ServerState)
    (g : Bytes) (rsv atyp : UInt8) (field : Bytes) (hg : Offer g)
    (hs : Stored old atyp field c.obj.userDst) (res : Result UInt8 ErrorCode)
    (hw : c.obj.userWriteRespHandler = true)
    (h : At c [.write (response resp) .writeConnectResponseHandler]
      (g ++ [5,1,rsv,atyp] ++ field) [5,0] (report atyp c.obj.userDst))
    (ha : Allowed f.may
      (.write (response resp) Callback.writeConnectResponseHandler) res) :
    Phase f old resp
      (c.next server [] [] (.write (response resp) .writeConnectResponseHandler) res) := by
  have hd : server.done (.write (response resp) .writeConnectResponseHandler) res c.obj =
      callAndClearHandler c.obj .writeResp (res.code .noError) := by
    change writeConnectResponseHandler c.obj (res.code .noError) = _
    cases res with
    | ok d => rfl
    | error e d => exact if_pos (f.failed e ha.1)
  obtain ⟨hobj,hn⟩ := at_emit server c _ _ _ _ res _ _ h (hd.trans (call_writeResp _ _ hw))
  have hdst := congrArg Session.userDst hobj
  rw [received_write, List.append_nil, handed_write] at hn
  apply Phase.responded g rsv atyp field (res.code .noError) res.data hg
  · rw [hdst]; exact hs
  · exact allowed_part _ _ _ ha
  · cases res with
    | ok d => exact fun _ => ha
    | error e d => exact fun hok => absurd (f.failed e ha.1) hok
  · rw [hdst]; exact hn

theorem listens_next (f : Faults) (old : Destination) (c : ServerState)
    (op : Op UInt8 Callback) (res : Result UInt8 ErrorCode) (h : Listens f old c)
    (hp : c.pending = [op]) (ha : Allowed f.may op res) :
    Listens f old (c.next server [] [] op res) := by
  cases h with
  | greeting hl h =>
    obtain rfl := List.singleton_inj.mp (hp.symm.trans h.pending)
    exact greeting_next f old c res hl h ha
  | methods n hl hm h =>
    obtain rfl := List.singleton_inj.mp (hp.symm.trans h.pending)
    exact methods_next f old c n res hl hm h ha
  | answer g hg hl h =>
    obtain rfl := List.singleton_inj.mp (hp.symm.trans h.pending)
    exact answer_next f old c g hg res hl h ha
  | header g hg hl h =>
    obtain rfl := List.singleton_inj.mp (hp.symm.trans h.pending)
    exact header_next f old c g hg res hl h ha
  | ipv4 g rsv hg hl h =>
    obtain rfl := List.singleton_inj.mp (hp.symm.trans h.pending)
    exact ipv4_next f old c g rsv hg res hl h ha
  | length g rsv hg hl h =>
    obtain rfl := List.singleton_inj.mp (hp.symm.trans h.pending)
    exact length_next f old c g rsv hg res hl h ha
  | domainname g rsv len hg hl hlen h =>
    obtain rfl := List.singleton_inj.mp (hp.symm.trans h.pending)
    exact domainname_next f old c g rsv len hg res hl hlen h ha
  | ipv6 g rsv hg hl h =>
    obtain rfl := List.singleton_inj.mp (hp.symm.trans h.pending)
    exact ipv6_next f old c g rsv hg res hl h ha
  | answered g rsv atyp field hg hs h => exact absurd (hp.symm.trans h.pending) (by simp)
  | failed err t u herr ho why h => exact absurd (hp.symm.trans h.pending) (by simp)

theorem phase_next (f : Faults) (old : Destination) (resp : ConnectResponse) (c : ServerState)
    (op : Op UInt8 Callback) (res : Result UInt8 ErrorCode) (h : Phase f old resp c)
    (hp : c.pending = [op]) (ha : Allowed f.may op res) :
    Phase f old resp (c.next server [] [] op res) := by
  cases h with
  | listens h => exact .listens (listens_next f old c op res h hp ha)
  | responding g rsv atyp field hg hs hw h =>
    obtain rfl := List.singleton_inj.mp (hp.symm.trans h.pending)
    exact responding_next f old resp c g rsv atyp field hg hs res hw h ha
  | responded g rsv atyp field err u hg hs hu hok h =>
    exact absurd (hp.symm.trans h.pending) (by simp)

/-- No handler is set and no variable of the user is referred to. -/
structure Idle (s : Session) : Prop where
  handler : s.userReadReqHandler = false
  pointer : s.puserDst = false

theorem listens_begun (f : Faults) (s : Session) (hs : Idle s) :
    Listens f s.userDst (Conf.begun (readConnectRequest s)) := by
  have h : readConnectRequest s = ({ s with puserDst := true, userReadReqHandler := true },
      [.start (.read 2 .authReadReqHandler)]) := by
    simp [readConnectRequest, assertThat, hs.handler, hs.pointer, authReadReq]
  rw [h]
  exact .greeting ⟨rfl,rfl⟩ (at_begun _)

/-- The response is written once the request has been reported as read. -/
def Due (es : List Event) : Prop := es.getLast? = some (.call .readReq .noError)

theorem responding_invoke (f : Faults) (old : Destination) (resp : ConnectResponse)
    (c : ServerState) (h : Phase f old resp c) (hp : c.pending = []) (hd : Due c.events) :
    Phase f old resp (c.invoke (writeConnectResponse c.obj resp)) := by
  cases h with
  | listens h =>
    cases h with
    | greeting hl h => exact absurd (h.pending.symm.trans hp) (by simp)
    | methods n hl hm h => exact absurd (h.pending.symm.trans hp) (by simp)
    | answer g hg hl h => exact absurd (h.pending.symm.trans hp) (by simp)
    | header g hg hl h => exact absurd (h.pending.symm.trans hp) (by simp)
    | ipv4 g rsv hg hl h => exact absurd (h.pending.symm.trans hp) (by simp)
    | length g rsv hg hl h => exact absurd (h.pending.symm.trans hp) (by simp)
    | domainname g rsv len hg hl hlen h => exact absurd (h.pending.symm.trans hp) (by simp)
    | ipv6 g rsv hg hl h => exact absurd (h.pending.symm.trans hp) (by simp)
    | answered g rsv atyp field hg hs h =>
      have hn := at_invoke c (writeConnectResponse c.obj resp) _ _ _ h
      change At _ _ _ _ (_ ++ []) at hn
      rw [List.append_nil] at hn
      exact .responding g rsv atyp field hg hs rfl hn
    | failed err t u herr ho why h =>
      rw [Due, h.events] at hd
      simp only [List.getLast?_singleton, Option.some.injEq, Event.call.injEq, true_and] at hd
      exact absurd (hd ▸ herr) ErrorCode.noError_failed
  | responding g rsv atyp field hg hs hw h => exact absurd (h.pending.symm.trans hp) (by simp)
  | responded g rsv atyp field err u hg hs hu hok h => simp [Due, h.events] at hd

/-- A server on a socket that may fail, used as a session uses it. -/
abbrev Dialogue (f : Faults) (inp : Bytes) (resp : ConnectResponse) :
    ServerWire → ServerWire → Prop :=
  Served server f.may inp Due fun s => writeConnectResponse s resp

def start (s : Session) : ServerWire := Wire.begun (readConnectRequest s)

theorem readConnectRequest_single (s : Session) :
    (started (readConnectRequest s).2).length ≤ 1 := by
  simp only [readConnectRequest, authReadReq, assertThat]
  split_ifs <;> simp

theorem dialogue_phase (f : Faults) (s : Session) (hs : Idle s) (inp : Bytes)
    (resp : ConnectResponse) (w : ServerWire) (hr : Run (Dialogue f inp resp) (start s) w) :
    ∃ c, Tracks w c ∧ Phase f s.userDst resp c :=
  served_tracks server f.may inp Due (fun s => writeConnectResponse s resp)
    (fun _ => Nat.le_refl _) (Phase f s.userDst resp) (phase_next f s.userDst resp)
    (responding_invoke f s.userDst resp) _ w _ (tracks_begun _ (readConnectRequest_single s))
    (.listens (listens_begun f s hs)) hr

end ProxySwiss.ServerSocks5Run
