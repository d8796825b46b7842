import RustDesk.Rendezvous.Connections

/-!
# Replies go to the connection that asked

A reply finds its connection through `tcp_punch`, by the address that the request was forwarded
with. As long as no two connections that are open, or have asked, go by one address, every entry
belongs to the connection of its address: replies are written to who asked, and a connection that
closes removes no entry but its own. WebSockets behind a proxy that sets `X-Real-IP` lose their
port, and two of them from one client break it.
-/

namespace RustDesk.Rendezvous.Tcp

variable {c : Conn}

/-! ### Addresses as keys -/

/-- What of an address a reply is routed by. -/
def routeKey (addr : SocketAddr) : SocketAddr := (tryIntoV4 addr).plain

lemma plain_tryIntoV4_v6 (ip : Ipv6Addr) (port : UInt16) (flowinfo scopeId : UInt32) :
    (tryIntoV4 (.v6 ip port flowinfo scopeId)).plain = tryIntoV4 (.v6 ip port 0 0) := by
  simp only [tryIntoV4]
  split_ifs
  · rfl
  · cases ip.toIpv4 <;> rfl

lemma tryIntoV4_idem (addr : SocketAddr) : tryIntoV4 (tryIntoV4 addr) = tryIntoV4 addr := by
  cases addr with
  | v4 ip port => rfl
  | v6 ip port flowinfo scopeId =>
    by_cases hloop : ip.isLoopback
    · have h : tryIntoV4 (.v6 ip port flowinfo scopeId) = .v6 ip port flowinfo scopeId := by
        simp only [tryIntoV4, hloop, if_true]
      rw [h, h]
    · cases hip : ip.toIpv4 with
      | none =>
        have h : tryIntoV4 (.v6 ip port flowinfo scopeId) = .v6 ip port flowinfo scopeId := by
          simp only [tryIntoV4, hip, ite_self]
        rw [h, h]
      | some v4 =>
        have h : tryIntoV4 (.v6 ip port flowinfo scopeId) = .v4 v4 port := by
          simp only [tryIntoV4, hloop, hip, Bool.false_eq_true, if_false]
        rw [h]
        rfl

/-- Routing by what a forwarded address decodes to is routing by the address. -/
lemma routeKey_routeKey (addr : SocketAddr) : routeKey (routeKey addr) = routeKey addr := by
  rw [routeKey, routeKey]
  cases h : tryIntoV4 addr with
  | v4 ip port => rfl
  | v6 ip port flowinfo scopeId =>
    have hidem := tryIntoV4_idem addr
    rw [h] at hidem
    rw [SocketAddr.plain, ← plain_tryIntoV4_v6 ip port flowinfo scopeId, hidem]
    rfl

lemma decode_encode_routeKey (addr : SocketAddr) (micros : ℕ) :
    AddrMangle.decode (AddrMangle.encode addr micros) = some (routeKey addr) := by
  rw [AddrMangle.encode, routeKey]
  cases tryIntoV4 addr with
  | v4 ip port => exact AddrMangle.decode_encode_v4 ip port (Nat.mod_lt _ (by decide)) rfl
  | v6 ip port flowinfo scopeId => exact AddrMangle.decode_encode_v6 ip port

/-! ### Who owns what -/

/-- The connection may still use its address: it is open, or a request of it may be answered. -/
def Conn.live (c : Conn) : Bool := c.phase ≠ .closed || c.asked

lemma Conn.live_of_phase (h : c.phase ≠ .closed) : c.live := by
  simp [live, h]

lemma Conn.live_of_asked (h : c.asked) : c.live := by
  simp [live, h]

/-- Request `r` came in on connection `k`. -/
def AskedBy (requests : List Request) (r k : ℕ) : Prop :=
  ∃ q, requests[r]? = some q ∧ q.conn = k

/-- A write half that a reply was given is that of the connection the reply is for. -/
def SinkFits (requests : List Request) (sink : Option ℕ) (origin : Origin) : Prop :=
  ∀ o r, sink = some o → origin = .request r → AskedBy requests r o

def Phase.Fits (requests : List Request) (k : ℕ) : Phase → Prop
  | parking _ r => AskedBy requests r k
  | asking _ r => AskedBy requests r k
  | refusing _ r => AskedBy requests r k
  | sending sink _ origin _ => SinkFits requests sink origin
  | _ => True

structure Conn.Fits (requests : List Request) (k : ℕ) (c : Conn) : Prop where
  asked : c.sink = false → c.asked
  phase : c.phase.Fits requests k
  written : ∀ r reply, Written.reply (.request r) reply ∈ c.written → AskedBy requests r k

/-- Requests are not forgotten, and stay those of their connections. -/
def Extends (requests requests' : List Request) : Prop :=
  ∀ r k, AskedBy requests r k → AskedBy requests' r k

section Extends

variable {requests requests' : List Request} (hext : Extends requests requests')
include hext

lemma SinkFits.of_extends {sink : Option ℕ} {origin : Origin} (h : SinkFits requests sink origin) :
    SinkFits requests' sink origin :=
  fun o r ho hr => hext _ _ (h o r ho hr)

lemma Conn.Fits.of_extends {k : ℕ} (h : c.Fits requests k) : c.Fits requests' k where
  asked := h.asked
  phase := by
    have hphase := h.phase
    cases hc : c.phase with
    | parking ask r | asking ask r | refusing failure r => rw [hc] at hphase; exact hext _ _ hphase
    | sending sink reply origin again =>
      rw [hc] at hphase
      exact SinkFits.of_extends hext hphase
    | _ => trivial
  written r reply hr := hext _ _ (h.written r reply hr)

end Extends

lemma extends_concat (requests : List Request) (q : Request) : Extends requests (requests ++ [q]) :=
  fun _ _ ⟨q', hq', hk⟩ => ⟨q', Slots.get_concat hq' q, hk⟩

lemma extends_modify (requests : List Request) (r : ℕ) (socketAddr : Option Bytes) :
    Extends requests (requests.modify r fun q => { q with socketAddr }) := by
  rintro r' k ⟨q, hq, hk⟩
  by_cases hr : r' = r
  · subst hr
    exact ⟨_, Slots.get_modify_self hq _, hk⟩
  · exact ⟨q, by rw [List.getElem?_modify_ne _ _ (Ne.symm hr), hq], hk⟩

/-- Addresses in use differ, and everything under way belongs to the connection that asked. -/
structure Routed (w : World) : Prop where
  apart : ∀ {i j : ℕ} {c d : Conn}, w.conns[i]? = some c → w.conns[j]? = some d → c.live →
    d.live → routeKey c.addr = routeKey d.addr → i = j
  punch : ∀ {a : SocketAddr} {o : ℕ}, w.tcpPunch a = some o →
    ∃ c, w.conns[o]? = some c ∧ c.asked ∧ tryIntoV4 c.addr = a
  request : ∀ {r : ℕ} {q : Request}, w.requests[r]? = some q →
    ∃ c, w.conns[q.conn]? = some c ∧ c.asked ∧
      ∀ b, q.socketAddr = some b → AddrMangle.decode b = some (routeKey c.addr)
  conn : ∀ {k : ℕ} {c : Conn}, w.conns[k]? = some c → c.Fits w.requests k
  writer : ∀ {x : Writer}, x ∈ w.writers → SinkFits w.requests x.sink x.origin

namespace Routed

variable {w : World} {k : ℕ} {a : SocketAddr} {origin : Origin} {b : Bytes} {f : Conn → Conn}

lemma start (key : String) : Routed (.start key) where
  apart hi := by simp [World.start] at hi
  punch h := by simp [World.start] at h
  request h := by simp [World.start] at h
  conn h := by simp [World.start] at h
  writer h := by simp [World.start] at h

variable (h : Routed w)

include h

/-- An entry under the address of a connection in use is that connection's. -/
lemma owner_eq (hc : w.conns[k]? = some c) (hlive : c.live)
    (ha : routeKey a = routeKey c.addr) {o : ℕ} (ho : w.tcpPunch (tryIntoV4 a) = some o) :
    o = k := by
  obtain ⟨d, hd, hasked, haddr⟩ := h.punch ho
  apply h.apart hd hc (Conn.live_of_asked hasked) hlive
  rw [routeKey, haddr]
  exact ha

/-- A reply is given the write half of the connection whose request it answers, or none. -/
lemma sinkFits (hb : w.socketAddr origin = some b) (ha : AddrMangle.decode b = some a) :
    SinkFits w.requests (w.tcpPunch (tryIntoV4 a)) origin := by
  rintro o r ho rfl
  obtain ⟨q, hq, hqb⟩ := Option.bind_eq_some_iff.mp hb
  obtain ⟨c, hc, hasked, hdecode⟩ := h.request hq
  have haddr : a = routeKey c.addr := Option.some.inj (ha.symm.trans (hdecode b hqb))
  have hkey : routeKey a = routeKey c.addr := by rw [haddr, routeKey_routeKey]
  exact ⟨q, hq, (h.owner_eq hc (Conn.live_of_asked hasked) hkey ho).symm⟩

/-! ### What a step does to it -/

lemma change {requests : List Request} (hext : Extends w.requests requests)
    (hf : ∀ c, w.conns[k]? = some c → (f c).addr = c.addr ∧ (c.asked → (f c).asked) ∧
      ((f c).live → c.live) ∧ (f c).Fits requests k)
    (hreq : ∀ {r : ℕ} {q : Request}, requests[r]? = some q →
      ∃ c, w.conns[q.conn]? = some c ∧ (c.asked ∨ q.conn = k ∧ (f c).asked) ∧
        ∀ b, q.socketAddr = some b → AddrMangle.decode b = some (routeKey c.addr)) :
    Routed ({ w with requests }.modify k f) := by
  have hslot : ∀ {i : ℕ} {c' : Conn}, (w.modify k f).conns[i]? = some c' → ∃ c,
      w.conns[i]? = some c ∧ c'.addr = c.addr ∧ (c'.live → c.live) ∧ c'.Fits requests i := by
    intro i c' hc'
    obtain ⟨c, hc, ⟨rfl, rfl⟩ | ⟨-, rfl⟩⟩ := Slots.modify_cases hc'
    · obtain ⟨haddr, -, hlive, hfits⟩ := hf c hc
      exact ⟨c, hc, haddr, hlive, hfits⟩
    · exact ⟨c', hc, rfl, id, (h.conn hc).of_extends hext⟩
  have hkept : ∀ {i : ℕ} {c : Conn}, w.conns[i]? = some c → c.asked ∨ i = k ∧ (f c).asked →
      ∃ c', (w.modify k f).conns[i]? = some c' ∧ c'.asked ∧ c'.addr = c.addr := by
    intro i c hc hasked
    by_cases hi : i = k
    · subst hi
      obtain ⟨haddr, hask, -⟩ := hf c hc
      exact ⟨f c, Slots.get_modify_self hc f, hasked.elim hask (·.2), haddr⟩
    · refine ⟨c, ?_, hasked.resolve_right fun h => hi h.1, rfl⟩
      rw [World.modify, List.getElem?_modify_ne _ _ (Ne.symm hi), hc]
  constructor
  case apart =>
    intro i j c' d' hc' hd' hlc hld hkey
    obtain ⟨c, hc, hca, hcl, -⟩ := hslot hc'
    obtain ⟨d, hd, hda, hdl, -⟩ := hslot hd'
    rw [hca, hda] at hkey
    exact h.apart hc hd (hcl hlc) (hdl hld) hkey
  case punch =>
    intro a o ho
    obtain ⟨c, hc, hasked, haddr⟩ := h.punch ho
    obtain ⟨c', hc', hasked', haddr'⟩ := hkept hc (.inl hasked)
    exact ⟨c', hc', hasked', by rw [haddr', haddr]⟩
  case request =>
    intro r q hq
    obtain ⟨c, hc, hasked, hdecode⟩ := hreq hq
    obtain ⟨c', hc', hasked', haddr'⟩ := hkept hc hasked
    exact ⟨c', hc', hasked', by rwa [haddr']⟩
  case conn =>
    intro i c' hc'
    obtain ⟨c, -, -, -, hfits⟩ := hslot hc'
    exact hfits
  case writer => exact fun hx => (h.writer hx).of_extends hext

lemma modify
    (hf : ∀ c, w.conns[k]? = some c → (f c).addr = c.addr ∧ (c.asked → (f c).asked) ∧
      ((f c).live → c.live) ∧ (f c).Fits w.requests k) :
    Routed (w.modify k f) := by
  apply h.change (fun _ _ => id) hf
  intro r q hq
  obtain ⟨c, hc, hasked, hdecode⟩ := h.request hq
  exact ⟨c, hc, .inl hasked, hdecode⟩

lemma goto (hc : w.conns[k]? = some c) (hlive : c.phase ≠ .closed) {phase : Phase}
    (hphase : phase.Fits w.requests k) : Routed (w.modify k (·.goto phase)) := by
  apply h.modify
  intro d hd
  obtain rfl : d = c := Option.some.inj (hd.symm.trans hc)
  exact ⟨rfl, id, fun _ => Conn.live_of_phase hlive, (h.conn hc).asked, hphase, (h.conn hc).written⟩

lemma written
    (hf : ∀ c, (f c).addr = c.addr ∧ (f c).asked = c.asked ∧ (f c).phase = c.phase ∧
      (f c).sink = c.sink)
    (hw : ∀ c r reply, Written.reply (.request r) reply ∈ (f c).written →
      .reply (.request r) reply ∈ c.written ∨ AskedBy w.requests r k) :
    Routed (w.modify k f) := by
  apply h.modify
  intro c hc
  obtain ⟨haddr, hasked, hphase, hsink⟩ := hf c
  refine ⟨haddr, hasked.symm ▸ id, ?_, ?_, ?_, ?_⟩
  · rw [Conn.live, Conn.live, hphase, hasked]
    exact id
  · rw [hsink, hasked]
    exact (h.conn hc).asked
  · rw [hphase]
    exact (h.conn hc).phase
  · intro r reply hr
    exact (hw c r reply hr).elim ((h.conn hc).written r reply) id

lemma sendTo {sink : Option ℕ} (hsink : SinkFits w.requests sink origin)
    (reply : Reply) : Routed (w.sendTo sink (.reply origin reply)) := by
  cases sink with
  | none => exact h
  | some o =>
    apply h.written
    · exact fun c => ⟨rfl, rfl, rfl, rfl⟩
    · intro c r reply' hr
      rcases List.mem_append.mp hr with hr | hr
      · exact .inl hr
      · cases List.mem_singleton.mp hr
        exact .inr (hsink o r rfl rfl)

lemma park (hc : w.conns[k]? = some c) (hasked : c.asked) : Routed (w.park k c.addr) where
  apart := h.apart
  punch {a o} ho := by
    rw [World.tcpPunch_park] at ho
    by_cases ha : a = tryIntoV4 c.addr
    · rw [ha, Function.update_self] at ho
      obtain rfl : k = o := Option.some.inj ho
      exact ⟨c, hc, hasked, ha.symm⟩
    · rw [Function.update_of_ne ha] at ho
      exact h.punch ho
  request := h.request
  conn := h.conn
  writer := h.writer

lemma unpark (addr : SocketAddr) : Routed (w.unpark addr) where
  apart := h.apart
  punch {a o} ho := by
    rw [World.tcpPunch_unpark] at ho
    by_cases ha : a = tryIntoV4 addr
    · rw [ha, Function.update_self] at ho
      cases ho
    · rw [Function.update_of_ne ha] at ho
      exact h.punch ho
  request := h.request
  conn := h.conn
  writer := h.writer

variable (hc : w.conns[k]? = some c)

include hc

lemma ask (hphase : c.phase = .reading) (ask : Ask) : Routed (w.ask k ask) := by
  have hnew : AskedBy (w.requests ++ [Request.mk k none]) w.requests.length k :=
    ⟨_, List.getElem?_concat_length, rfl⟩
  have hext := extends_concat w.requests (Request.mk k none)
  apply h.change hext
  case hf =>
    intro d hd
    obtain rfl : d = c := Option.some.inj (hd.symm.trans hc)
    refine ⟨rfl, fun _ => rfl, fun _ => Conn.live_of_phase (by simp [hphase]), fun _ => rfl, ?_, ?_⟩
    · rw [Conn.ask]
      split_ifs <;> exact hnew
    · exact ((h.conn hc).of_extends hext).written
  case hreq =>
    intro r q hq
    rcases Slots.concat_cases hq with rfl | hq
    · exact ⟨c, hc, .inr ⟨rfl, rfl⟩, fun b hb => by cases hb⟩
    · obtain ⟨d, hd, hasked, hdecode⟩ := h.request hq
      exact ⟨d, hd, .inl hasked, hdecode⟩

lemma forward {ask : Ask} {r : ℕ}
    (hphase : c.phase = .asking ask r) (env : Env) (push : Push) (dest : SocketAddr) :
    Routed (w.forward k c r env push dest) := by
  have hby : AskedBy w.requests r k := by
    have := (h.conn hc).phase
    rwa [hphase] at this
  obtain ⟨q₀, hq₀, hk⟩ := hby
  let requests := w.requests.modify r fun q =>
    { q with socketAddr := some (AddrMangle.encode c.addr env.micros) }
  have hext : Extends w.requests requests := extends_modify _ _ _
  have hw : Routed ({ w with requests }.modify k (·.goto .reading)) := by
    apply h.change hext
    case hf =>
      intro d hd
      obtain rfl : d = c := Option.some.inj (hd.symm.trans hc)
      have hfits := (h.conn hc).of_extends hext
      exact ⟨rfl, id, fun _ => Conn.live_of_phase (by simp [hphase]), hfits.asked, trivial,
        hfits.written⟩
    case hreq =>
      intro r' q' hq'
      obtain ⟨q, hq, hcases⟩ := Slots.modify_cases hq'
      obtain ⟨d, hd, hasked, hdecode⟩ := h.request hq
      rcases hcases with ⟨rfl, rfl⟩ | ⟨-, rfl⟩
      · refine ⟨d, hd, .inl hasked, ?_⟩
        rintro b hb
        cases Option.some.inj (hq₀.symm.trans hq)
        cases Option.some.inj (hc.symm.trans (hk ▸ hd))
        cases Option.some.inj hb
        exact decode_encode_routeKey _ _
      · exact ⟨d, hd, .inl hasked, hdecode⟩
  exact ⟨hw.apart, hw.punch, hw.request, hw.conn, hw.writer⟩

lemma reply (hlive : c.phase ≠ .closed) (reply : Reply)
    (hb : w.socketAddr origin = some b) : Routed (w.reply k reply origin b) := by
  rw [World.reply]
  cases ha : AddrMangle.decode b with
  | none => exact h.goto hc hlive trivial
  | some a =>
    have hsink := h.sinkFits hb ha
    have hun := h.unpark a
    dsimp only
    split_ifs
    · exact hun.goto hc hlive hsink
    · have hgoto : Routed ((w.unpark a).modify k (·.goto .leaving)) := hun.goto hc hlive trivial
      refine ⟨hgoto.apart, hgoto.punch, hgoto.request, hgoto.conn, ?_⟩
      intro x hx
      rcases List.mem_append.mp hx with hx | hx
      · exact hgoto.writer hx
      · cases List.mem_singleton.mp hx
        exact hsink

/-- What a message makes of its connection, the two requests apart. -/
lemma handle (hphase : c.phase = .reading) (msg : Message) :
    Routed (w.modify k (·.handle msg)) := by
  apply h.modify
  intro d hd
  obtain rfl : d = c := Option.some.inj (hd.symm.trans hc)
  have hlive : d.live := Conn.live_of_phase (by simp [hphase])
  obtain ⟨d₁, phase, hd₁, hp, heq⟩ := d.handle_eq msg
  have hfits : phase.Fits w.requests k := by
    rcases hp with rfl | rfl | ⟨reply, origin, rfl⟩
    · rw [hphase]; trivial
    · trivial
    · trivial
  have hold := h.conn hc
  rw [heq]
  rcases hd₁ with rfl | rfl
  · exact ⟨rfl, id, fun _ => hlive, hold.asked, hfits, hold.written⟩
  · refine ⟨d.send_addr _, ?_, fun _ => hlive, ?_, hfits, ?_⟩
    · exact (d.send_asked .answer).symm ▸ id
    · rw [Conn.goto, d.send_asked, d.send_sink]
      exact hold.asked
    · intro r reply hr
      rcases Conn.mem_written_send hr with hr | hr
      · exact hold.written r reply hr
      · cases hr

lemma receive (hphase : c.phase = .reading) (msg : Message) : Routed (w.receive k msg) := by
  cases msg with
  | punchHoleRequest licenceKey => exact h.ask hc hphase _
  | requestRelay => exact h.ask hc hphase _
  | _ => exact h.handle hc hphase _

lemma advance {env : Env} {w' : World} (hw : w.advance k c env = some w') : Routed w' := by
  have hlive : c.phase ≠ .closed := by
    intro hphase
    simp [World.advance, hphase] at hw
  have hfits := (h.conn hc).phase
  rw [World.advance] at hw
  split at hw <;> rename_i hphase <;> rw [hphase] at hfits
  · cases hw
  · cases hw
    obtain ⟨q, hq, rfl⟩ := hfits
    obtain ⟨d, hd, hasked, -⟩ := h.request hq
    cases Option.some.inj (hc.symm.trans hd)
    exact (h.park hc hasked).goto hc hlive ⟨q, hq, rfl⟩
  · split at hw <;> cases hw
    · exact h.goto hc hlive hfits
    · exact h.forward hc hphase _ _ _
  · split at hw <;> cases hw
    · exact h.goto hc hlive trivial
    · exact h.forward hc hphase _ _ _
  · cases hw
    refine (h.unpark c.addr).goto hc hlive ?_
    intro o r' ho hr
    cases hr
    rwa [h.owner_eq hc (Conn.live_of_phase hlive) rfl ho]
  · obtain ⟨b, hb, rfl⟩ := Option.map_eq_some_iff.mp hw
    exact h.reply hc hlive _ hb
  · cases hw
    rename_i sink reply origin again
    obtain ⟨c', hc', hphase'⟩ := World.get_sendTo hc sink (.reply origin reply)
    refine (h.sendTo hfits reply).goto hc' (hphase' ▸ hlive) ?_
    cases again <;> trivial
  · cases hw
    have hgoto : Routed (w.modify k (·.goto .closing)) := h.goto hc hlive trivial
    exact ⟨hgoto.apart, hgoto.punch, hgoto.request, hgoto.conn, hgoto.writer⟩
  · cases hw
    split_ifs
    · exact h.goto hc hlive trivial
    · exact (h.unpark c.addr).goto hc hlive trivial
  · cases hw

end Routed

/-! ### Runs -/

/-- A connection is let in only if no other that is open, or has asked, goes by its address. -/
def freshAddr (w : World) : Act → Bool
  | .accept kind addr headers =>
    w.conns.all fun c => !c.live || routeKey c.addr ≠ routeKey (kind.addr addr headers)
  | _ => true

namespace Routed

variable {w w' : World}

lemma accept (h : Routed w) {kind : Kind} {addr : SocketAddr} {headers : Headers}
    (hfresh : freshAddr w (.accept kind addr headers)) : Routed (w.accept kind addr headers) := by
  have hne : ∀ {i : ℕ} {c : Conn}, w.conns[i]? = some c → c.live →
      routeKey c.addr ≠ routeKey (kind.addr addr headers) := by
    intro i c hc hlive
    have := List.all_eq_true.mp hfresh c (List.mem_of_getElem? hc)
    simpa [hlive] using this
  constructor
  case apart =>
    intro i j c d hc hd hlc hld hkey
    rcases Slots.concat_cases_length hc with ⟨hi, rfl⟩ | hc <;>
      rcases Slots.concat_cases_length hd with ⟨hj, rfl⟩ | hd
    · rw [hi, hj]
    · exact absurd hkey.symm (hne hd hld)
    · exact absurd hkey (hne hc hlc)
    · exact h.apart hc hd hlc hld hkey
  case punch =>
    intro a o ho
    obtain ⟨c, hc, hrest⟩ := h.punch ho
    exact ⟨c, Slots.get_concat hc _, hrest⟩
  case request =>
    intro r q hq
    obtain ⟨c, hc, hrest⟩ := h.request hq
    exact ⟨c, Slots.get_concat hc _, hrest⟩
  case conn =>
    intro k c hc
    rcases Slots.concat_cases hc with rfl | hc
    · constructor
      · intro hsink; cases hsink
      · trivial
      · intro r reply hr; cases hr
    · exact h.conn hc
  case writer => exact h.writer

lemma deliver (h : Routed w) (push : Push) (addr : SocketAddr) : Routed (w.deliver push addr) := by
  rw [World.deliver]
  cases w.tcpSenders (tryIntoV4 addr) with
  | none => exact h
  | some k =>
    apply h.written
    · intro c
      rw [Conn.enqueue]
      split_ifs <;> exact ⟨rfl, rfl, rfl, rfl⟩
    · intro c r reply hr
      rw [Conn.enqueue] at hr
      split_ifs at hr <;> exact .inl hr

lemma receivePush (h : Routed w) {k : ℕ} : Routed (w.modify k (·.receivePush)) := by
  apply h.written
  · intro c
    cases hrx : c.rx with
    | nil =>
      rw [Conn.receivePush_of_nil hrx]
      exact ⟨rfl, rfl, rfl, rfl⟩
    | cons push rx => simp [Conn.receivePush_of_cons hrx]
  · intro c r reply hr
    cases hrx : c.rx with
    | nil =>
      rw [Conn.receivePush_of_nil hrx] at hr
      exact .inl hr
    | cons push rx =>
      rw [Conn.receivePush_of_cons hrx] at hr
      rcases Conn.mem_written_send hr with hr | hr
      · exact .inl hr
      · cases hr

lemma step (h : Routed w) {act : Act} (hfresh : freshAddr w act) (hw : w.step act = some w') :
    Routed w' := by
  cases act with
  | accept kind addr headers =>
    cases hw
    exact h.accept hfresh
  | receive k msg =>
    obtain ⟨c, hc, hphase, hw⟩ := World.whenReading_some hw
    cases hw
    exact h.receive hc hphase msg
  | hangUp k =>
    obtain ⟨c, hc, hphase, hw⟩ := World.whenReading_some hw
    cases hw
    exact h.goto hc (by simp [hphase]) trivial
  | receivePush k =>
    obtain ⟨c, hc, hphase, hw⟩ := World.whenReading_some hw
    split_ifs at hw
    cases hw
    exact h.receivePush
  | heartbeat k =>
    obtain ⟨c, hc, hphase, hw⟩ := World.whenReading_some hw
    split_ifs at hw
    cases hw
    apply h.written
    · exact fun c => ⟨c.send_addr _, c.send_asked _, c.send_phase _, c.send_sink _⟩
    · intro c r reply hr
      rcases Conn.mem_written_send hr with hr | hr
      · exact .inl hr
      · cases hr
  | advance k env =>
    obtain ⟨c, hc, hw⟩ := Option.bind_eq_some_iff.mp hw
    exact h.advance hc hw
  | write i =>
    obtain ⟨x, hx, hw⟩ := Option.bind_eq_some_iff.mp hw
    have hfits := h.writer (List.mem_of_getElem? hx)
    have hsent := h.sendTo hfits x.reply
    split_ifs at hw
    cases hw
    refine ⟨hsent.apart, hsent.punch, hsent.request, hsent.conn, ?_⟩
    intro y hy
    rcases List.mem_or_eq_of_mem_set hy with hy | rfl
    · exact hsent.writer (World.writers_sendTo w x.sink _ ▸ hy)
    · exact World.requests_sendTo w x.sink _ ▸ hfits
  | post push addr =>
    cases hw
    exact ⟨h.apart, h.punch, h.request, h.conn, h.writer⟩
  | sendNext =>
    obtain ⟨out, -, rfl⟩ := Option.map_eq_some_iff.mp hw
    have hqueue : Routed { w with queue := w.queue.tail } :=
      ⟨h.apart, h.punch, h.request, h.conn, h.writer⟩
    exact hqueue.deliver out.1 out.2

end Routed

/-- Replies to a request are written to the connection it came in on, and a connection that closes
leaves the write halves of the others in `tcp_punch`. -/
structure AnswersAsker (w : World) : Prop where
  written : ∀ {k : ℕ} {c : Conn} {r : ℕ} {reply : Reply}, w.conns[k]? = some c →
    .reply (.request r) reply ∈ c.written → ∃ q, w.requests[r]? = some q ∧ q.conn = k
  kept : ∀ {k : ℕ} {c : Conn} {env : Env} {w' : World}, w.conns[k]? = some c → ¬c.running →
    w.advance k c env = some w' → ∀ a o, w.tcpPunch a = some o → o ≠ k → w'.tcpPunch a = some o

lemma Routed.kept {w w' : World} (h : Routed w) {k : ℕ} {env : Env} (hc : w.conns[k]? = some c)
    (hend : ¬c.running) (hw : w.advance k c env = some w') {a : SocketAddr} {o : ℕ}
    (ho : w.tcpPunch a = some o) (hne : o ≠ k) : w'.tcpPunch a = some o := by
  have hphase : c.phase = .leaving ∨ c.phase = .closing ∨ c.phase = .closed := by
    simpa [Conn.running, or_iff_not_imp_left] using hend
  rw [World.advance] at hw
  rcases hphase with hphase | hphase | hphase <;> rw [hphase] at hw <;> cases hw
  · exact ho
  · by_cases hsink : c.sink
    · rw [if_pos hsink]
      exact ho
    · have ha : a ≠ tryIntoV4 c.addr := by
        rintro rfl
        exact hne (h.owner_eq hc (Conn.live_of_phase (by simp [hphase])) rfl ho)
      rw [if_neg hsink]
      show (w.unpark c.addr).tcpPunch a = some o
      rw [World.tcpPunch_unpark, Function.update_of_ne ha]
      exact ho

/-- While no address is shared, every reply to a request is written to the connection that made it,
and no connection that closes takes the write half of another from the map. -/
theorem reply_to_asker {w : World} (h : (lts.restrict freshAddr).Reachable w) :
    AnswersAsker w := by
  have hrouted : Routed w := by
    refine h.restrict_invariant ?_ fun _ _ _ hs => hs.step
    rintro s ⟨key, rfl⟩
    exact .start key
  constructor
  · intro k c r reply hc hr
    exact (hrouted.conn hc).written r reply hr
  · intro k c env w' hc hend hw a o ho hne
    exact hrouted.kept hc hend hw ho hne

/-- The octets of a client's address, as its proxy writes them. -/
def proxied : Headers := ⟨some ("203.0.113.7".toList.map ascii), none⟩

def gateway : SocketAddr := .v4 (.new 127 0 0 1) 4000

def desktop : SocketAddr := .v4 (.new 198 51 100 4) 21118

def found : Env := ⟨some (0, desktop), false, false, 1⟩

/-- A proxied WebSocket, a tunnel and a direct client, and the replies to the first two. -/
def threeAsk : List Act :=
  [.accept .ws gateway proxied, .accept .vless gateway ⟨none, none⟩,
    .accept .direct desktop ⟨none, none⟩, .receive 0 (.punchHoleRequest ""),
    .receive 1 .requestRelay, .advance 1 found, .advance 0 found, .advance 0 found,
    .advance 1 found, .receive 2 (.punchHoleSent (.request 0)), .advance 2 found, .write 0]

theorem reply_to_asker_proxied : ∃ w, (lts.restrict freshAddr).Reachable w ∧ AnswersAsker w ∧
    w.conns.map (·.written) = [[.reply (.request 0) (.punchHoleResponse false)], [], []] := by
  have hrun : ∃ w ∈ (lts.restrict freshAddr).run (.start "") threeAsk, w.conns.map (·.written) =
      [[.reply (.request 0) (.punchHoleResponse false)], [], []] := by decide
  obtain ⟨w, hw, hwritten⟩ := hrun
  have hreach : (lts.restrict freshAddr).Reachable w :=
    LTS.Reachable.run (.init ⟨_, rfl⟩) (Option.mem_def.mp hw)
  exact ⟨w, hreach, reply_to_asker hreach, hwritten⟩

/-- Two WebSockets of one client behind the proxy: the second to ask drops the write half of the
first, and is written the reply to the first. -/
theorem proxied_misrouted : ∃ w, lts.Reachable w ∧ ¬AnswersAsker w ∧
    w.requests.map (·.conn) = [0, 1] ∧
    w.conns.map (·.written) = [[], [.reply (.request 0) (.punchHoleResponse false)], []] := by
  have hrun : ∃ w ∈ lts.run (.start "")
      [.accept .ws gateway proxied, .accept .ws gateway proxied,
        .accept .direct desktop ⟨none, none⟩, .receive 0 (.punchHoleRequest ""),
        .receive 1 (.punchHoleRequest ""), .advance 0 found, .advance 1 found, .advance 0 found,
        .advance 1 found, .receive 2 (.punchHoleSent (.request 0)), .advance 2 found, .write 0],
      w.requests.map (·.conn) = [0, 1] ∧
      w.conns.map (·.written) = [[], [.reply (.request 0) (.punchHoleResponse false)], []] := by
    decide
  obtain ⟨w, hw, hrequests, hwritten⟩ := hrun
  refine ⟨w, .run (.init ⟨_, rfl⟩) (Option.mem_def.mp hw), ?_, hrequests, hwritten⟩
  intro hanswers
  have hconn : w.conns[1]?.map (·.written) =
      some [.reply (.request 0) (.punchHoleResponse false)] := by
    rw [← List.getElem?_map, hwritten]
    rfl
  obtain ⟨c, hc, hcw⟩ := Option.map_eq_some_iff.mp hconn
  obtain ⟨q, hq, hqk⟩ := hanswers.written hc (hcw ▸ List.mem_singleton_self _)
  have hzero : w.requests[0]?.map (·.conn) = some 0 := by
    rw [← List.getElem?_map, hrequests]
    rfl
  rw [hq, Option.map_some, hqk] at hzero
  cases hzero

end RustDesk.Rendezvous.Tcp
