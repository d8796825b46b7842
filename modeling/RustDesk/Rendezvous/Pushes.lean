import RustDesk.Rendezvous.Connections

/-!
# Pushes to a tunnel

A connection that has authenticated as VLESS is pushed to through its channel: the loop takes the
push and writes it, if it has the write half. A request of the connection moves the write half to
`tcp_punch`, and nothing brings it back. So the pushes that were taken are written, in the order
they came in, exactly when none is taken after a request.
-/

namespace RustDesk.Rendezvous.Tcp

variable {w w' : World}

def Written.push? : Written → Option Push
  | push p => some p
  | _ => none

namespace Conn

variable {c : Conn} {push : Push} {rx : List Push}

/-- The pushes among what was written to the connection. -/
def pushesWritten (c : Conn) : List Push := c.written.filterMap Written.push?

/-- Every push taken from the channel was written to the socket, and they came in this order. -/
def Delivered (c : Conn) : Prop := c.pushesWritten = c.taken ∧ c.taken <+: c.pushed

instance (c : Conn) : Decidable c.Delivered := inferInstanceAs (Decidable (_ ∧ _))

/-- What holds of every connection, delivered or not. -/
structure Tidy (c : Conn) : Prop where
  sink : c.sink = !c.asked
  pushes : c.pushesWritten.Sublist c.taken
  queue : c.taken ++ c.rx = c.pushed

lemma Tidy.start (kind : Kind) (addr : SocketAddr) : (Conn.start kind addr).Tidy :=
  ⟨rfl, .slnil, rfl⟩

lemma Tidy.delivered_iff (h : c.Tidy) : c.Delivered ↔ c.pushesWritten.length = c.taken.length :=
  ⟨fun hd => congrArg _ hd.1, fun hl => ⟨h.pushes.eq_of_length hl, ⟨c.rx, h.queue⟩⟩⟩

/-! ### One connection -/

/-- A change that takes no push; a request may come in, and pushes may be queued. -/
structure Quiet (c c' : Conn) : Prop where
  kind : c'.kind = c.kind
  sink : c'.sink = c.sink ∧ c'.asked = c.asked ∨ c'.sink = false ∧ c'.asked = true
  written : c'.pushesWritten = c.pushesWritten
  taken : c'.taken = c.taken
  queue : ∃ more, c'.rx = c.rx ++ more ∧ c'.pushed = c.pushed ++ more

namespace Quiet

variable {c' c'' : Conn} {m : Written}

lemma refl (c : Conn) : Quiet c c :=
  ⟨rfl, .inl ⟨rfl, rfl⟩, rfl, rfl, [], (List.append_nil _).symm, (List.append_nil _).symm⟩

lemma trans (h : Quiet c c') (h' : Quiet c' c'') : Quiet c c'' where
  kind := h'.kind.trans h.kind
  sink := by
    rcases h'.sink with ⟨hs, ha⟩ | hs
    · rw [hs, ha]
      exact h.sink
    · exact .inr hs
  written := h'.written.trans h.written
  taken := h'.taken.trans h.taken
  queue := by
    obtain ⟨more, hrx, hpushed⟩ := h.queue
    obtain ⟨more', hrx', hpushed'⟩ := h'.queue
    exact ⟨more ++ more', by rw [hrx', hrx, List.append_assoc],
      by rw [hpushed', hpushed, List.append_assoc]⟩

lemma tidy (h : Quiet c c') (hc : c.Tidy) : c'.Tidy where
  sink := by
    rcases h.sink with ⟨hs, ha⟩ | ⟨hs, ha⟩
    · rw [hs, ha]
      exact hc.sink
    · rw [hs, ha]
      rfl
  pushes := by
    rw [h.written, h.taken]
    exact hc.pushes
  queue := by
    obtain ⟨more, hrx, hpushed⟩ := h.queue
    rw [hrx, hpushed, h.taken, ← List.append_assoc, hc.queue]

lemma goto (c : Conn) (phase : Phase) : Quiet c (c.goto phase) :=
  ⟨rfl, .inl ⟨rfl, rfl⟩, rfl, rfl, [], (List.append_nil _).symm, (List.append_nil _).symm⟩

lemma ask (c : Conn) (ask : Ask) (r : ℕ) : Quiet c (c.ask ask r) :=
  ⟨rfl, .inr ⟨rfl, rfl⟩, rfl, rfl, [], (List.append_nil _).symm, (List.append_nil _).symm⟩

lemma write (c : Conn) (hm : m.push? = none) : Quiet c { c with written := c.written ++ [m] } := by
  refine ⟨rfl, .inl ⟨rfl, rfl⟩, ?_, rfl, [], (List.append_nil _).symm, (List.append_nil _).symm⟩
  simp [pushesWritten, hm]

lemma send (c : Conn) (hm : m.push? = none) : Quiet c (c.send m) := by
  rw [Conn.send]
  split_ifs
  · exact write c hm
  · exact refl c

lemma handle (c : Conn) (msg : Message) : Quiet c (c.handle msg) := by
  obtain ⟨c₁, phase, hc₁, -, heq⟩ := c.handle_eq msg
  rw [heq]
  rcases hc₁ with rfl | rfl
  · exact goto _ phase
  · exact (send c rfl).trans (goto _ phase)

lemma enqueue (c : Conn) (push : Push) : Quiet c (c.enqueue push) := by
  rw [Conn.enqueue]
  split_ifs
  · exact ⟨rfl, .inl ⟨rfl, rfl⟩, rfl, rfl, [push], rfl, rfl⟩
  · exact refl c

end Quiet

/-- A push that is taken while the task has the write half is written, otherwise it is dropped. -/
lemma receivePush_spec (h : c.rx = push :: rx) :
    c.receivePush.taken = c.taken ++ [push] ∧ c.receivePush.rx = rx ∧
      c.receivePush.pushed = c.pushed ∧ c.receivePush.kind = c.kind ∧
      c.receivePush.pushesWritten =
        if c.sink then c.pushesWritten ++ [push] else c.pushesWritten := by
  rw [receivePush_of_cons h, send]
  split_ifs <;> simp [pushesWritten, Written.push?]

lemma length_receivePush (h : c.rx = push :: rx) :
    c.receivePush.taken.length = c.taken.length + 1 ∧
      c.receivePush.pushesWritten.length = c.pushesWritten.length + if c.sink then 1 else 0 := by
  obtain ⟨htaken, -, -, -, hwritten⟩ := receivePush_spec h
  rw [htaken, hwritten]
  constructor
  · simp
  · split_ifs <;> simp

lemma Tidy.receivePush (h : c.Tidy) : c.receivePush.Tidy := by
  cases hrx : c.rx with
  | nil =>
    rw [receivePush_of_nil hrx]
    exact h
  | cons push rx =>
    obtain ⟨htaken, hrest, hpushed, -, hwritten⟩ := receivePush_spec hrx
    constructor
    · rw [receivePush_of_cons hrx, send_sink, send_asked]
      exact h.sink
    · rw [htaken, hwritten]
      split_ifs
      · exact h.pushes.append_right [push]
      · exact h.pushes.trans (List.sublist_append_left _ _)
    · rw [htaken, hrest, hpushed, ← h.queue, hrx, List.append_assoc, List.singleton_append]

end Conn

/-! ### All connections -/

/-- No connection takes a push. -/
structure Calm (conns conns' : List Conn) : Prop where
  length : conns'.length = conns.length
  conn : ∀ {k : ℕ} {c c' : Conn}, conns[k]? = some c → conns'[k]? = some c' → c.Quiet c'

namespace Calm

variable {conns conns' conns'' : List Conn} {k : ℕ} {c : Conn}

lemma get (h : Calm conns conns') (hc : conns[k]? = some c) : ∃ c', conns'[k]? = some c' := by
  have hk : k < conns'.length := h.length ▸ (List.getElem?_eq_some_iff.mp hc).1
  exact ⟨_, List.getElem?_eq_getElem hk⟩

lemma get_of (h : Calm conns conns') {c' : Conn} (hc' : conns'[k]? = some c') :
    ∃ c, conns[k]? = some c := by
  have hk : k < conns.length := h.length ▸ (List.getElem?_eq_some_iff.mp hc').1
  exact ⟨_, List.getElem?_eq_getElem hk⟩

lemma refl (conns : List Conn) : Calm conns conns := by
  refine ⟨rfl, ?_⟩
  intro k c c' hc hc'
  cases Option.some.inj (hc.symm.trans hc')
  exact .refl c

lemma trans (h : Calm conns conns') (h' : Calm conns' conns'') : Calm conns conns'' := by
  refine ⟨h'.length.trans h.length, ?_⟩
  intro k c c'' hc hc''
  obtain ⟨c', hc'⟩ := h.get hc
  exact (h.conn hc hc').trans (h'.conn hc' hc'')

lemma modify (conns : List Conn) (k : ℕ) {f : Conn → Conn} (hf : ∀ c : Conn, c.Quiet (f c)) :
    Calm conns (conns.modify k f) := by
  refine ⟨List.length_modify _ _ _, ?_⟩
  intro i c c' hc hc'
  obtain ⟨d, hd, hcases⟩ := Slots.modify_cases hc'
  cases Option.some.inj (hc.symm.trans hd)
  rcases hcases with ⟨-, rfl⟩ | ⟨-, rfl⟩
  · exact hf _
  · exact .refl _

lemma goto (conns : List Conn) (k : ℕ) (phase : Phase) :
    Calm conns (conns.modify k (·.goto phase)) :=
  modify conns k fun c => .goto c phase

lemma sendTo (w : World) (sink : Option ℕ) {m : Written} (hm : m.push? = none) :
    Calm w.conns (w.sendTo sink m).conns := by
  cases sink with
  | none => exact refl w.conns
  | some o => exact modify w.conns o fun c => .write c hm

lemma receive (w : World) (k : ℕ) (msg : Message) : Calm w.conns (w.receive k msg).conns := by
  cases msg with
  | punchHoleRequest licenceKey | requestRelay => exact modify w.conns k fun c => .ask c _ _
  | _ => exact modify w.conns k fun c => .handle c _

lemma reply (w : World) (k : ℕ) (reply : Reply) (origin : Origin) (b : Bytes) :
    Calm w.conns (w.reply k reply origin b).conns := by
  rw [World.reply]
  cases AddrMangle.decode b with
  | none => exact goto w.conns k .closed
  | some a =>
    dsimp only
    split_ifs
    · exact goto w.conns k _
    · exact goto w.conns k .leaving

lemma deliver (w : World) (push : Push) (addr : SocketAddr) :
    Calm w.conns (w.deliver push addr).conns := by
  rw [World.deliver]
  cases w.tcpSenders (tryIntoV4 addr) with
  | none => exact refl w.conns
  | some k => exact modify w.conns k fun c => .enqueue c push

lemma advance {env : Env} (h : w.advance k c env = some w') : Calm w.conns w'.conns := by
  rw [World.advance] at h
  split at h
  case h_3 => split at h <;> cases h <;> exact goto w.conns k _
  case h_4 => split at h <;> cases h <;> exact goto w.conns k _
  case h_6 reply origin hphase =>
    obtain ⟨b, -, rfl⟩ := Option.map_eq_some_iff.mp h
    exact Calm.reply w k reply origin b
  case h_7 sink reply origin again hphase =>
    cases h
    exact (sendTo w sink rfl).trans (goto _ k _)
  case h_9 =>
    cases h
    split_ifs <;> exact goto w.conns k .closed
  all_goals cases h <;> exact goto w.conns k _

end Calm

/-- What a step does to the connections. -/
inductive Effect (w : World) (act : Act) (w' : World) : Prop where
  | accepted (kind : Kind) (addr : SocketAddr) (h : w'.conns = w.conns ++ [.start kind addr])
  | calm (h : Calm w.conns w'.conns)
  | took {k : ℕ} {c : Conn} {push : Push} {rx : List Push} (hact : act = .receivePush k)
      (hc : w.conns[k]? = some c) (hkind : c.kind = .vless) (hrx : c.rx = push :: rx)
      (h : w'.conns = w.conns.modify k (·.receivePush))

lemma effect_of_receivePush {k : ℕ} (h : w.step (.receivePush k) = some w') :
    ∃ c push rx, w.conns[k]? = some c ∧ c.kind = .vless ∧ c.rx = push :: rx ∧
      w'.conns = w.conns.modify k (·.receivePush) := by
  obtain ⟨c, hc, -, h⟩ := World.whenReading_some h
  split_ifs at h with hif
  cases h
  obtain ⟨push, rx, hrx⟩ := List.exists_cons_of_ne_nil hif.2
  exact ⟨c, push, rx, hc, hif.1, hrx, rfl⟩

lemma effect_of_step {act : Act} (h : w.step act = some w') : Effect w act w' := by
  cases act with
  | accept kind addr headers =>
    cases h
    exact .accepted kind _ rfl
  | receive k msg =>
    obtain ⟨c, -, -, h⟩ := World.whenReading_some h
    cases h
    exact .calm (.receive w k msg)
  | hangUp k =>
    obtain ⟨c, -, -, h⟩ := World.whenReading_some h
    cases h
    exact .calm (.goto w.conns k .leaving)
  | receivePush k =>
    obtain ⟨c, push, rx, hc, hkind, hrx, hw⟩ := effect_of_receivePush h
    exact .took rfl hc hkind hrx hw
  | heartbeat k =>
    obtain ⟨c, -, -, h⟩ := World.whenReading_some h
    split_ifs at h
    cases h
    exact .calm (.modify w.conns k fun c => .send c rfl)
  | advance k env =>
    obtain ⟨c, -, h⟩ := Option.bind_eq_some_iff.mp h
    exact .calm (.advance h)
  | write i =>
    obtain ⟨x, -, h⟩ := Option.bind_eq_some_iff.mp h
    split_ifs at h
    cases h
    exact .calm (.sendTo w x.sink rfl)
  | post push addr =>
    cases h
    exact .calm (.refl w.conns)
  | sendNext =>
    obtain ⟨out, -, rfl⟩ := Option.map_eq_some_iff.mp h
    exact .calm (.deliver { w with queue := w.queue.tail } out.1 out.2)

/-! ### Runs -/

def AllTidy (w : World) : Prop := ∀ (k : ℕ) (c : Conn), w.conns[k]? = some c → c.Tidy

/-- Every tunnel has been written the pushes its loop has taken. -/
def AllDelivered (w : World) : Prop :=
  ∀ (k : ℕ) (c : Conn), w.conns[k]? = some c → c.kind = .vless → c.Delivered

/-- No push is taken after a request of the connection. -/
def beforeAsking (w : World) : Act → Bool
  | .receivePush k => w.conns[k]?.all fun c => !c.asked
  | _ => true

section Step

variable {w w' : World} {act : Act} (hstep : w.step act = some w')

include hstep

lemma AllTidy.step (h : AllTidy w) : AllTidy w' := by
  intro k c' hc'
  cases effect_of_step hstep with
  | accepted kind addr hw =>
    rw [hw] at hc'
    rcases Slots.concat_cases hc' with rfl | hc
    · exact .start kind addr
    · exact h k c' hc
  | calm hcalm =>
    obtain ⟨c, hc⟩ := hcalm.get_of hc'
    exact (hcalm.conn hc hc').tidy (h k c hc)
  | took hact hc hkind hrx hw =>
    rw [hw] at hc'
    obtain ⟨c, hc, ⟨-, rfl⟩ | ⟨-, rfl⟩⟩ := Slots.modify_cases hc'
    · exact (h k c hc).receivePush
    · exact h k c' hc

lemma AllDelivered.step (ht : AllTidy w) (h : AllDelivered w) (hok : beforeAsking w act)
    : AllDelivered w' := by
  intro k c' hc' hkind'
  have htidy' : c'.Tidy := ht.step hstep k c' hc'
  rw [htidy'.delivered_iff]
  cases effect_of_step hstep with
  | accepted kind addr hw =>
    rw [hw] at hc'
    rcases Slots.concat_cases hc' with rfl | hc
    · rfl
    · exact (ht k c' hc).delivered_iff.mp (h k c' hc hkind')
  | calm hcalm =>
    obtain ⟨c, hc⟩ := hcalm.get_of hc'
    have hq := hcalm.conn hc hc'
    rw [hq.written, hq.taken]
    exact (ht k c hc).delivered_iff.mp (h k c hc (hq.kind ▸ hkind'))
  | @took i d push rx hact hd hkind hrx hw =>
    rw [hw] at hc'
    obtain ⟨c, hc, ⟨rfl, rfl⟩ | ⟨-, rfl⟩⟩ := Slots.modify_cases hc'
    · cases Option.some.inj (hc.symm.trans hd)
      have hsink : d.sink := by
        have hasked : d.asked = false := by simpa [hact, beforeAsking, hd] using hok
        rw [(ht k d hd).sink, hasked]
        rfl
      obtain ⟨htaken, hwritten⟩ := Conn.length_receivePush hrx
      rw [htaken, hwritten, if_pos hsink, (ht k d hd).delivered_iff.mp (h k d hd hkind)]
    · exact (ht k c' hc).delivered_iff.mp (h k c' hc hkind')

/-- A push that is taken after a request is lost. -/
lemma not_allDelivered_of_asked (ht : AllTidy w) (hok : ¬beforeAsking w act) :
    ¬AllDelivered w' := by
  intro h
  cases act with
  | receivePush k =>
    have ht' := ht.step hstep
    obtain ⟨c, push, rx, hc, hkind, hrx, hw⟩ := effect_of_receivePush hstep
    have hc' : w'.conns[k]? = some c.receivePush := hw ▸ Slots.get_modify_self hc _
    have hasked : c.asked = true := by simpa [beforeAsking, hc] using hok
    have hsink : c.sink = false := by rw [(ht k c hc).sink, hasked]; rfl
    have hkind' : c.receivePush.kind = .vless :=
      (Conn.receivePush_spec hrx).2.2.2.1.trans hkind
    have heq := (ht' k _ hc').delivered_iff.mp (h k _ hc' hkind')
    have hle := (ht k c hc).pushes.length_le
    obtain ⟨htaken, hwritten⟩ := Conn.length_receivePush hrx
    rw [htaken, hwritten, hsink] at heq
    simp only [Bool.false_eq_true, if_false] at heq
    omega
  | _ => exact hok rfl

/-- What is lost stays lost. -/
lemma not_allDelivered_step (ht : AllTidy w) (h : ¬AllDelivered w) : ¬AllDelivered w' := by
  intro h'
  have ht' := ht.step hstep
  apply h
  intro k c hc hkind
  rw [(ht k c hc).delivered_iff]
  have hback : ∀ c', w'.conns[k]? = some c' → c'.kind = .vless →
      c'.pushesWritten.length = c'.taken.length :=
    fun c' hc' hkind' => (ht' k c' hc').delivered_iff.mp (h' k c' hc' hkind')
  cases effect_of_step hstep with
  | accepted kind addr hw => exact hback c (hw ▸ Slots.get_concat hc _) hkind
  | calm hcalm =>
    obtain ⟨c', hc'⟩ := hcalm.get hc
    have hq := hcalm.conn hc hc'
    rw [← hq.written, ← hq.taken]
    exact hback c' hc' (hq.kind.trans hkind)
  | @took i d push rx hact hd _ hrx hw =>
    by_cases hk : k = i
    · subst hk
      cases Option.some.inj (hc.symm.trans hd)
      have heq := hback c.receivePush (hw ▸ Slots.get_modify_self hc _)
        ((Conn.receivePush_spec hrx).2.2.2.1.trans hkind)
      have hle := (ht k c hc).pushes.length_le
      obtain ⟨htaken, hwritten⟩ := Conn.length_receivePush hrx
      rw [htaken, hwritten] at heq
      split_ifs at heq <;> omega
    · exact hback c (by rw [hw, List.getElem?_modify_ne _ _ (Ne.symm hk), hc]) hkind

end Step

/-- In every run from the start, all pushes that tunnels have taken were written to them in order
exactly when no tunnel has taken one after it asked. -/
theorem pushes_delivered_iff {key : String} {acts : List Act} {w : World}
    (h : lts.run (.start key) acts = some w) :
    AllDelivered w ↔ (lts.restrict beforeAsking).run (.start key) acts = some w := by
  refine LTS.run_restrict_iff (I := AllTidy) ?_ ?_ ?_ ?_ h ?_ ?_
  · exact fun s act s' hs hstep => hs.step hstep
  · exact fun s act s' hs hd hok hstep => hd.step hstep hs hok
  · exact fun s act s' hs hok hstep => not_allDelivered_of_asked hstep hs hok
  · exact fun s act s' hs hd hstep => not_allDelivered_step hstep hs hd
  · intro k c hc
    cases hc
  · intro k c hc
    cases hc

/-- A tunnel at the gateway's address. -/
def tunnel : SocketAddr := .v4 (.new 127 0 0 1) 4000

/-- Two pushes are taken before the tunnel asks for a relay. -/
theorem pushes_delivered_iff_before : ∃ w,
    lts.run (.start "")
      [.accept .vless tunnel ⟨none, none⟩, .post (.other [1]) tunnel, .sendNext, .receivePush 0,
        .post (.other [2]) tunnel, .sendNext, .receivePush 0, .receive 0 .requestRelay] = some w ∧
    AllDelivered w := by
  refine LTS.exists_run_of (LTS.exists_run_iff beforeAsking (P := fun w =>
    w.conns.map (·.written) = [[.push (.other [1]), .push (.other [2])]]) (by decide) ?_)
    fun _ _ h => h.2
  exact fun _ => pushes_delivered_iff

/-- The tunnel asks for a relay; the push that comes in then is taken and not written. -/
theorem push_lost_after_asking : ∃ w, lts.run (.start "")
      [.accept .vless tunnel ⟨none, none⟩, .receive 0 .requestRelay,
        .advance 0 ⟨none, false, false, 0⟩, .advance 0 ⟨none, false, false, 0⟩,
        .post (.other [1]) tunnel, .sendNext, .receivePush 0] = some w ∧
    ¬AllDelivered w ∧ w.conns.map (·.phase) = [.reading] := by
  refine LTS.exists_run_of (P := fun w => w.conns.map (·.phase) = [.reading] ∧
    ∃ c, w.conns[0]? = some c ∧ c.kind = .vless ∧ c.taken = [.other [1]] ∧ c.written = [])
    ⟨_, rfl, by decide, _, rfl, by decide⟩ ?_
  rintro w - ⟨hphase, c, hc, hkind, htaken, hwritten⟩
  refine ⟨fun h => ?_, hphase⟩
  have hd := (h 0 c hc hkind).1
  rw [Conn.pushesWritten, hwritten, htaken] at hd
  cases hd

end RustDesk.Rendezvous.Tcp
