import RustDesk.PortForward.System

/-!
# One channel seen from both ends

A `Pair` is a channel of the controller, the channel its `open` has created on the controlled
side, and what is on its way between the two. The rest of the system appears only as what it can
do to them: a lookup that drops an entry, and frames of another channel under the same id, which
make the pair `noisy`. As long as ids are not reused there are none; that the system refines this
model is shown in `Simulation`.
-/

namespace RustDesk.PortForward

def Frame.isOpen : Frame → Bool
  | openMsg _ _ _ _ => true
  | _ => false

/-- A frame for a channel, at the endpoint that has it; without its entry it is not found. -/
def Channel.receive (c : Channel) (f : Frame) : Channel :=
  if c.rx.txLive then
    match f with
    | .openMsg _ _ _ _ => c
    | .openedMsg _ success _ window => if c.side = .controller then c.onOpened success window else c
    | .dataMsg _ b => c.onData b
    | .closeMsg _ => c.onClose
    | .windowUpdateMsg _ n => c.onWindowUpdate n
  else c

namespace Channel

variable {c c' : Channel} {f : Frame}

lemma receive_of_dead (h : c.rx.txLive = false) (f : Frame) : c.receive f = c := by
  simp [receive, h]

lemma push_txLive (r : Receiver) (m : Inbound) : (r.dropEntry.push m).1.txLive = false := by
  unfold Receiver.push
  split_ifs <;> rfl

/-- Everything a frame can do to a channel. -/
inductive Receives (c : Channel) (f : Frame) : Channel → Prop where
  | same (hf : c.rx.txLive = true → payloads [f] = [] ∧ updates [f] = []) : Receives c f c
  | data {id : ChannelId} {b : Bytes} (ht : c.rx.txLive = true) (hf : f = .dataMsg id b) :
      Receives c f (c.onData b)
  | close (ht : c.rx.txLive = true)
      (hf : (∃ id, f = .closeMsg id) ∨ ∃ id m w, f = .openedMsg id false m w) :
      Receives c f c.onClose
  | windowUpdate {id : ChannelId} {n : ℕ} (ht : c.rx.txLive = true)
      (hf : f = .windowUpdateMsg id n) : Receives c f (c.onWindowUpdate n)
  | opened {id : ChannelId} {m : String} {w : ℕ} (ht : c.rx.txLive = true)
      (hs : c.side = .controller) (ho : c.opened = false) (hf : f = .openedMsg id true m w) :
      Receives c f { c with
        opened := true, tx := { c.tx with credit := c.tx.credit.raiseInitial w } }

lemma receives (c : Channel) (f : Frame) : c.Receives f (c.receive f) := by
  cases ht : c.rx.txLive with
  | false =>
    rw [receive_of_dead ht]
    exact .same (by simp [ht])
  | true =>
    unfold receive
    rw [if_pos ht]
    cases f with
    | openMsg id host port window => exact .same fun _ => ⟨rfl, rfl⟩
    | openedMsg id success message window =>
      dsimp only
      split_ifs with hs
      · unfold onOpened
        split_ifs with hsuccess ho
        · exact .same fun _ => ⟨rfl, rfl⟩
        · subst hsuccess
          exact .opened ht hs (by simpa using ho) rfl
        · obtain rfl : success = false := by simpa using hsuccess
          exact .close ht (Or.inr ⟨_, _, _, rfl⟩)
      · exact .same fun _ => ⟨rfl, rfl⟩
    | dataMsg id b => exact .data ht rfl
    | closeMsg id => exact .close ht (Or.inl ⟨id, rfl⟩)
    | windowUpdateMsg id n => exact .windowUpdate ht rfl

lemma Receives.evolves (h : c.Receives f c') : c.Evolves c' := by
  cases h with
  | same hf => exact .refl c
  | data ht hf => exact .of_moves ⟨false, false, false⟩ (.data _ ht)
  | close ht hf => exact .of_moves ⟨false, false, false⟩ (.close ht)
  | windowUpdate ht hf => exact .of_moves ⟨false, false, false⟩ (.windowUpdate _ ht)
  | @opened id m w ht hs ho hf =>
    have hm : Moves ⟨false, false, false⟩ c (c.onOpened true w) none := .opened true w ht
    unfold onOpened at hm
    rw [if_pos rfl, if_neg (by simp [ho])] at hm
    exact .of_moves _ hm

lemma Receives.sameTask (h : c.Receives f c') : c.SameTask c' := by
  cases h with
  | same hf => exact ⟨rfl, rfl, rfl, rfl, rfl, ⟨_, rfl⟩, rfl, rfl, rfl, rfl, rfl, rfl⟩
  | data ht hf => exact c.sameTask_onData _
  | close ht hf => exact c.sameTask_push _
  | windowUpdate ht hf => exact c.sameTask_credit _ _
  | opened ht hs ho hf => exact c.sameTask_credit _ _

lemma receive_sameTask (c : Channel) (f : Frame) : c.SameTask (c.receive f) :=
  (c.receives f).sameTask

/-- Once the frame queues are gone, no task emits anything. -/
lemma Rule.eq_none_of_closed {env : Env} {e : Option Frame} (h : Rule env c c' e)
    (hc : env.closed = true) : e = none := by
  cases h with
  | sender hp hs =>
    cases hs with
    | send hpc hopen =>
      have : env.closed = false := hopen
      simp [hc] at this
    | _ => rfl
  | receiver hp hs =>
    cases hs with
    | update hpc hopen =>
      have : env.closed = false := hopen
      simp [hc] at this
    | _ => rfl
  | sendOpen hp hopen | abort hp hopen | refuse hp hopen | announce hp hopen | close hp hopen =>
    simp [hc] at hopen
  | _ => rfl

end Channel

lemma ControllerFrames.open_first {id : ChannelId} {fs l₁ l₂ : List Frame} {f : Frame}
    (h : ControllerFrames id fs) (hf : f.isOpen = true) (hp : l₁ ++ f :: l₂ <+: fs) :
    l₁ = [] ∧ ∃ host port, f = .openMsg id host port channelWindow := by
  rcases h with rfl | ⟨host, port, rest, rfl, ds, hrest⟩
  · simp at hp
  · cases l₁ with
    | nil =>
      rw [List.nil_append, List.cons_prefix_cons] at hp
      exact ⟨rfl, host, port, hp.1⟩
    | cons g l₁ =>
      rw [List.cons_append, List.cons_prefix_cons] at hp
      have hmem : f ∈ rest := hp.2.subset (by simp)
      rcases hrest with rfl | rfl
      · obtain ⟨b, _, rfl⟩ := List.mem_map.mp hmem
        cases hf
      · rcases List.mem_append.mp hmem with hmem | hmem
        · obtain ⟨b, _, rfl⟩ := List.mem_map.mp hmem
          cases hf
        · rw [List.mem_singleton.mp hmem] at hf
          cases hf

structure Pair where
  near : Channel
  far : Option Channel
  /-- the ordered frames of the near channel on their way, and the amounts of its updates -/
  out : List Frame
  grants : List ℕ
  /-- the frames of the far channel on their way -/
  back : List Frame
  /-- the frames that have arrived -/
  seen : List Frame
  seenBack : List Frame
  nearClosed : Bool
  farClosed : Bool
  refused : Bool
  noisy : Bool

namespace Pair

def new (id : ChannelId) (host : String) (port : ℤ) (prebuf : Bytes) (nearClosed farClosed : Bool) :
    Pair :=
  ⟨.controller id host port prebuf, none, [], [], [], [], [], nearClosed, farClosed, false, false⟩

/-- What can happen to a pair. -/
inductive Step (p : Pair) : Pair → Prop where
  | nearTask {env : Env} {c : Channel} {e : Option Frame} (hr : Channel.Rule env p.near c e)
      (hc : env.closed = p.nearClosed) :
      Step p { p with
        near := c, out := p.out ++ ordered e.toList, grants := p.grants ++ updates e.toList }
  | nearFinishAdd {c : Channel} (hf : p.near.finishAdd = some c) : Step p { p with near := c }
  | nearDrop : Step p { p with near := p.near.dropEntry }
  /-- the loop drops the receivers of its queues, and with them what was not on the stream -/
  | nearShut {out : List Frame} {grants : List ℕ} (ho : out <+: p.out) (hg : grants <+: p.grants)
      (hl : p.near.rx.txLive = true → p.far = none ∧ out = []) :
      Step p { p with out := out, grants := grants, nearClosed := true }
  | farTask {env : Env} {d d' : Channel} {e : Option Frame} (hd : p.far = some d)
      (hr : Channel.Rule env d d' e) (hc : env.closed = p.farClosed) :
      Step p { p with far := some d', back := p.back ++ e.toList }
  | farFinishAdd {d d' : Channel} (hd : p.far = some d) (hf : d.finishAdd = some d') :
      Step p { p with far := some d' }
  | farDrop {d : Channel} (hd : p.far = some d) : Step p { p with far := some d.dropEntry }
  | farShut {back : List Frame} (hb : back <+: p.back) (hl : ∀ d ∈ p.far, d.rx.txLive = false) :
      Step p { p with back := back, farClosed := true }
  | accept {f : Frame} {id : ChannelId} {host : String} {port : ℤ} {window : ℕ} {rest : List Frame}
      (u : String) (hf : f = .openMsg id host port window) (ho : p.out = f :: rest)
      (hc : p.farClosed = false) :
      Step p { p with
        far := some (.controlled id window u), out := rest, seen := p.seen ++ [f] }
  | refuse {f : Frame} {rest : List Frame} (hf : f.isOpen = true) (ho : p.out = f :: rest) :
      Step p { p with out := rest, seen := p.seen ++ [f], refused := true }
  | ignore {f : Frame} {rest : List Frame} (hf : f.isOpen = true) (ho : p.out = f :: rest) :
      Step p { p with out := rest, seen := p.seen ++ [f] }
  | recv {f : Frame} {rest : List Frame} (hf : f.isOpen = false) (ho : p.out = f :: rest) :
      Step p { p with
        far := p.far.map fun d => d.receive f, out := rest, seen := p.seen ++ [f] }
  | recvGrant {n : ℕ} {rest : List ℕ} (id : ChannelId) (hg : p.grants = n :: rest) :
      Step p { p with far := p.far.map fun d => d.receive (.windowUpdateMsg id n), grants := rest }
  | recvBack {f : Frame} {rest : List Frame} (hb : p.back = f :: rest) :
      Step p { p with near := p.near.receive f, back := rest, seenBack := p.seenBack ++ [f] }
  /-- a refusal by `on_open`: of this channel's own `open`, unless ids are reused -/
  | reply (id : ChannelId) (message : String) :
      Step p { p with
        near := p.near.receive (.openedMsg id false message 0), noisy := p.noisy || !p.refused }
  | noise {f : Frame} (hf : f.isOpen = false) :
      Step p { p with far := p.far.map fun d => d.receive f, noisy := true }
  | noiseBack {f : Frame} (hf : ∀ id m w, f = .openedMsg id true m w → w = channelWindow) :
      Step p { p with near := p.near.receive f, noisy := true }

inductive Reachable : Pair → Prop where
  | new (id : ChannelId) (host : String) (port : ℤ) (prebuf : Bytes)
      (nearClosed farClosed : Bool) : Reachable (new id host port prebuf nearClosed farClosed)
  | step {p p' : Pair} (hp : Reachable p) (h : Step p p') : Reachable p'

/-- The near channel goes on as it does at its endpoint, and so does the far one once it exists. -/
lemma Step.evolves {p p' : Pair} (h : Step p p') : p.near.Evolves p'.near ∧ ∀ d' ∈ p'.far,
    (∃ d ∈ p.far, d.Evolves d') ∨ (p'.farClosed = false ∧ ∃ f host port rest id w u,
      f = .openMsg id host port w ∧ p.out = f :: rest ∧ d' = .controlled id w u) := by
  have hreceive : ∀ (c : Channel) (f : Frame), c.Evolves (c.receive f) := fun c f =>
    (c.receives f).evolves
  have hfar : ∀ d' ∈ p.far, ∃ d ∈ p.far, d.Evolves d' := fun d' hd' => ⟨d', hd', .refl d'⟩
  have hmap : ∀ (f : Frame), ∀ d' ∈ p.far.map (fun d => d.receive f),
      ∃ d ∈ p.far, d.Evolves d' := by
    intro f d' hd'
    obtain ⟨d, hd, rfl⟩ := Option.map_eq_some_iff.mp hd'
    exact ⟨d, hd, hreceive d f⟩
  cases h with
  | @nearTask env c e hr hc => exact ⟨.of_moves env (.task hr), fun d' hd' => Or.inl (hfar d' hd')⟩
  | nearFinishAdd hf =>
    exact ⟨.of_moves ⟨false, false, false⟩ (.finishAdd hf), fun d' hd' => Or.inl (hfar d' hd')⟩
  | nearDrop => exact ⟨.of_moves ⟨false, false, false⟩ .drop, fun d' hd' => Or.inl (hfar d' hd')⟩
  | @farTask env d d' e hd hr hc =>
    refine ⟨.refl _, fun d'' hd'' => Or.inl ⟨d, hd, ?_⟩⟩
    cases hd''
    exact .of_moves env (.task hr)
  | farFinishAdd hd hf =>
    refine ⟨.refl _, fun d'' hd'' => Or.inl ⟨_, hd, ?_⟩⟩
    cases hd''
    exact .of_moves ⟨false, false, false⟩ (.finishAdd hf)
  | farDrop hd =>
    refine ⟨.refl _, fun d'' hd'' => Or.inl ⟨_, hd, ?_⟩⟩
    cases hd''
    exact .of_moves ⟨false, false, false⟩ .drop
  | accept u hf ho hc =>
    refine ⟨.refl _, fun d'' hd'' => Or.inr ⟨hc, _, _, _, _, _, _, u, hf, ho, ?_⟩⟩
    cases hd''
    rfl
  | recv hf ho | recvGrant id hg | noise hf => exact ⟨.refl _, fun d' hd' => Or.inl (hmap _ d' hd')⟩
  | recvBack hb | noiseBack hf => exact ⟨hreceive p.near _, fun d' hd' => Or.inl (hfar d' hd')⟩
  | reply id message =>
    exact ⟨hreceive p.near (.openedMsg id false message 0), fun d' hd' => Or.inl (hfar d' hd')⟩
  | nearShut | farShut | refuse | ignore =>
    exact ⟨.refl _, fun d' hd' => Or.inl (hfar d' hd')⟩

namespace Reachable

variable {p : Pair} (hp : p.Reachable)

include hp

/-- What a new channel of either side has and every move keeps, both channels have. -/
lemma forall_channel {P : Channel → Prop}
    (hnear : ∀ id host port prebuf, P (.controller id host port prebuf))
    (hfar : ∀ id window u, P (.controlled id window u))
    (hmoves : ∀ env c c' e, P c → Channel.Moves env c c' e → P c') :
    P p.near ∧ ∀ d ∈ p.far, P d := by
  induction hp with
  | new id host port prebuf nearClosed farClosed => exact ⟨hnear _ _ _ _, by simp [Pair.new]⟩
  | step _ h ih =>
    obtain ⟨hev, hfarev⟩ := h.evolves
    refine ⟨hev.invariant hmoves ih.1, fun d' hd' => ?_⟩
    rcases hfarev d' hd' with ⟨d, hd, hev⟩ | ⟨_, _, _, _, _, _, _, _, _, _, rfl⟩
    · exact hev.invariant hmoves (ih.2 d hd)
    · exact hfar _ _ _

lemma logged : (p.near.Windowed ∧ p.near.Logged) ∧ ∀ d ∈ p.far, d.Windowed ∧ d.Logged :=
  hp.forall_channel (P := fun c => c.Windowed ∧ c.Logged)
    (fun _ _ _ _ => ⟨Channel.controller_windowed .., Channel.controller_logged ..⟩)
    (fun _ _ _ => ⟨Channel.controlled_windowed .., Channel.controlled_logged ..⟩)
    (fun _ _ _ _ hc hm => Channel.Logged.moves hc hm)

lemma side : p.near.side = .controller ∧ ∀ d ∈ p.far, d.side = .controlled := by
  induction hp with
  | new id host port prebuf nearClosed farClosed => exact ⟨rfl, by simp [Pair.new]⟩
  | step _ h ih =>
    obtain ⟨hev, hfarev⟩ := h.evolves
    refine ⟨hev.id_eq.2.trans ih.1, fun d' hd' => ?_⟩
    rcases hfarev d' hd' with ⟨d, hd, hev⟩ | ⟨_, _, _, _, _, _, _, _, _, _, rfl⟩
    · exact hev.id_eq.2.trans (ih.2 d hd)
    · rfl

/-- What has arrived and what is on its way is what the near channel's task has emitted, but for
what the loop's end has cut off. -/
lemma out_log : p.seen ++ p.out <+: ordered p.near.log ∧
    (p.nearClosed = false → p.seen ++ p.out = ordered p.near.log) := by
  induction hp with
  | new id host port prebuf nearClosed farClosed => exact ⟨List.nil_prefix, fun _ => rfl⟩
  | @step p p' _ h ih =>
    have happend : ∀ (f : Frame) (rest : List Frame), p.out = f :: rest →
        p.seen ++ p.out = p.seen ++ [f] ++ rest := by
      intro f rest ho
      rw [ho, List.append_assoc, List.singleton_append]
    have hreceive : ∀ f, (p.near.receive f).log = p.near.log := fun f =>
      (p.near.receive_sameTask f).log
    cases h with
    | nearTask hr hc =>
      rename_i env c e
      dsimp only
      rw [hr.log_eq, ordered_append, ← List.append_assoc]
      cases hclosed : p.nearClosed with
      | false =>
        rw [ih.2 hclosed]
        exact ⟨List.prefix_rfl, fun _ => rfl⟩
      | true =>
        rw [hr.eq_none_of_closed (hc.trans hclosed)]
        simpa [ordered] using ih.1
    | nearFinishAdd hf =>
      obtain ⟨_, rfl⟩ := Channel.finishAdd_eq_some hf
      exact ih
    | nearShut ho hg hl =>
      exact ⟨(List.prefix_append_right_inj _).mpr ho |>.trans ih.1, by simp⟩
    | accept u hf ho hc | refuse hf ho | ignore hf ho | recv hf ho =>
      dsimp only
      rw [← happend _ _ ho]
      exact ih
    | recvBack hb | noiseBack hf =>
      dsimp only
      rw [hreceive]
      exact ih
    | reply id message =>
      dsimp only
      rw [hreceive (.openedMsg id false message 0)]
      exact ih
    | _ => exact ih

/-- The far channel, or its refusal, comes from an `open` that has arrived. -/
lemma open_seen (h : p.far ≠ none ∨ p.refused = true) : ∃ f ∈ p.seen, f.isOpen = true := by
  induction hp with
  | new id host port prebuf nearClosed farClosed => simp [Pair.new] at h
  | @step p p' _ hstep ih =>
    have hmore : ∀ f, (∃ g ∈ p.seen, g.isOpen = true) → ∃ g ∈ p.seen ++ [f], g.isOpen = true := by
      rintro f ⟨g, hg, hopen⟩
      exact ⟨g, List.mem_append_left _ hg, hopen⟩
    cases hstep with
    | accept u hf ho hc =>
      exact ⟨_, List.mem_append_right _ (List.mem_singleton.mpr rfl), by rw [hf]; rfl⟩
    | refuse hf ho => exact ⟨_, List.mem_append_right _ (List.mem_singleton.mpr rfl), hf⟩
    | ignore hf ho => exact hmore _ (ih h)
    | recv hf ho => exact hmore _ (ih (by simpa using h))
    | recvGrant id hg => exact ih (by simpa using h)
    | noise hf => exact ih (by simpa using h)
    | farTask hd hr hc | farFinishAdd hd hf | farDrop hd => exact ih (Or.inl (by simp [hd]))
    | _ => exact ih h

/-- When the near channel's `open` arrives nothing has come before it, so it meets no far channel
and has not been refused. -/
lemma head_open {f : Frame} {rest : List Frame} (hf : f.isOpen = true)
    (ho : p.out = f :: rest) : p.seen = [] ∧ p.far = none ∧ p.refused = false ∧
      ∃ host port, f = .openMsg p.near.id host port channelWindow := by
  have hframes := hp.logged.1.2.cases.controllerFrames hp.side.1
  obtain ⟨hseen, hopen⟩ := hframes.open_first hf (ho ▸ hp.out_log.1)
  have hnone : ∀ g ∈ p.seen, ¬g.isOpen = true := by simp [hseen]
  refine ⟨hseen, ?_, ?_, hopen⟩
  · by_contra hfar
    obtain ⟨g, hg, hgopen⟩ := hp.open_seen (Or.inl hfar)
    exact hnone g hg hgopen
  · by_contra href
    obtain ⟨g, hg, hgopen⟩ := hp.open_seen (Or.inr (by simpa using href))
    exact hnone g hg hgopen

lemma back_log : (∀ d ∈ p.far, p.seenBack ++ p.back <+: d.log ∧
      (p.farClosed = false → p.seenBack ++ p.back = d.log)) ∧
    (p.far = none → p.seenBack = [] ∧ p.back = []) := by
  induction hp with
  | new id host port prebuf nearClosed farClosed => exact ⟨by simp [Pair.new], fun _ => ⟨rfl, rfl⟩⟩
  | @step p p' hp h ih =>
    -- a frame that reaches the far channel leaves its log alone
    have hreceive : ∀ f, (∀ d ∈ p.far.map (fun d => d.receive f),
        p.seenBack ++ p.back <+: d.log ∧ (p.farClosed = false → p.seenBack ++ p.back = d.log)) ∧
        (p.far.map (fun d => d.receive f) = none → p.seenBack = [] ∧ p.back = []) := by
      intro f
      refine ⟨fun d' hd' => ?_, fun hnone => ih.2 (by simpa using hnone)⟩
      obtain ⟨d, hd, rfl⟩ := Option.map_eq_some_iff.mp hd'
      rw [(d.receive_sameTask f).log]
      exact ih.1 d hd
    cases h with
    | farTask hd hr hc =>
      rename_i env d d' e
      refine ⟨fun d'' hd'' => ?_, by simp⟩
      cases hd''
      obtain ⟨hle, heq⟩ := ih.1 d hd
      dsimp only
      rw [hr.log_eq, ← List.append_assoc]
      cases hclosed : p.farClosed with
      | false =>
        rw [heq hclosed]
        exact ⟨List.prefix_rfl, fun _ => rfl⟩
      | true =>
        rw [hr.eq_none_of_closed (hc.trans hclosed)]
        simpa using hle
    | @farFinishAdd d d' hd hf =>
      refine ⟨fun d'' hd'' => ?_, by simp⟩
      cases hd''
      obtain ⟨_, rfl⟩ := Channel.finishAdd_eq_some hf
      exact ih.1 d hd
    | @farDrop d hd =>
      refine ⟨fun d'' hd'' => ?_, by simp⟩
      cases hd''
      exact ih.1 d hd
    | farShut hb hl =>
      refine ⟨fun d hd => ⟨((List.prefix_append_right_inj _).mpr hb).trans (ih.1 d hd).1, by simp⟩,
        fun hnone => ?_⟩
      obtain ⟨hseen, hback⟩ := ih.2 hnone
      rw [hback] at hb
      exact ⟨hseen, List.prefix_nil.mp hb⟩
    | accept u hf ho hc =>
      refine ⟨fun d hd => ?_, by simp⟩
      cases hd
      obtain ⟨hseen, hback⟩ := ih.2 (hp.head_open (by rw [hf]; rfl) ho).2.1
      dsimp only
      rw [hseen, hback]
      exact ⟨List.prefix_rfl, fun _ => rfl⟩
    | recv hf ho | recvGrant id hg | noise hf => exact hreceive _
    | recvBack hb =>
      rename_i f rest
      have happend : p.seenBack ++ p.back = p.seenBack ++ [f] ++ rest := by
        rw [hb, List.append_assoc, List.singleton_append]
      dsimp only
      rw [← happend]
      refine ⟨ih.1, fun hnone => ?_⟩
      rw [(ih.2 hnone).2] at hb
      cases hb
    | _ => exact ih

lemma far_id : ∀ d ∈ p.far, d.id = p.near.id := by
  induction hp with
  | new id host port prebuf nearClosed farClosed => simp [Pair.new]
  | @step p p' hp h ih =>
    intro d' hd'
    obtain ⟨hev, hfarev⟩ := h.evolves
    rcases hfarev d' hd' with ⟨d, hd, hdev⟩ | ⟨_, f, host, port, rest, id, w, u, hf, ho, rfl⟩
    · rw [hdev.id_eq.1, hev.id_eq.1]
      exact ih d hd
    · obtain ⟨_, _, _, host', port', hopen⟩ := hp.head_open (by rw [hf]; rfl) ho
      rw [hf] at hopen
      cases hopen
      exact hev.id_eq.1.symm

lemma far_refused (h : p.far ≠ none) : p.refused = false := by
  induction hp with
  | new id host port prebuf nearClosed farClosed => rfl
  | @step p p' hp hstep ih =>
    cases hstep with
    | accept u hf ho hc => exact (hp.head_open (by rw [hf]; rfl) ho).2.2.1
    | refuse hf ho => exact (h (hp.head_open hf ho).2.1).elim
    | recv hf ho | recvGrant id hg | noise hf => exact ih (by simpa using h)
    | farTask hd hr hc => exact ih (by simp [hd])
    | farFinishAdd hd hf => exact ih (by simp [hd])
    | farDrop hd => exact ih (by simp [hd])
    | _ => exact ih h

/-- A channel that still has its entry after the loop's end never got as far as the stream. -/
lemma near_shut (hc : p.nearClosed = true) (ht : p.near.rx.txLive = true) :
    p.far = none ∧ p.out = [] := by
  induction hp with
  | new id host port prebuf nearClosed farClosed => exact ⟨rfl, rfl⟩
  | @step p p' _ h ih =>
    have hlive : p.near.rx.txLive = true := h.evolves.1.txLive ht
    cases h with
    | nearTask hr henv =>
      rw [hr.eq_none_of_closed (henv.trans hc)]
      simpa [ordered] using ih hc hlive
    | nearShut ho hg hl => exact hl hlive
    | accept u hf ho _ | refuse hf ho | ignore hf ho | recv hf ho =>
      rw [(ih hc hlive).2] at ho
      cases ho
    | recvGrant id hg | noise hf =>
      obtain ⟨hfar, hout⟩ := ih hc hlive
      exact ⟨by simp [hfar], hout⟩
    | farTask hd _ _ | farFinishAdd hd _ | farDrop hd =>
      rw [(ih hc hlive).1] at hd
      cases hd
    | _ => exact ih hc hlive

/-- The controlled side's loop ends after it has cleared its map. -/
lemma far_shut (hc : p.farClosed = true) : ∀ d ∈ p.far, d.rx.txLive = false := by
  induction hp with
  | new id host port prebuf nearClosed farClosed => simp [Pair.new]
  | @step p p' _ h ih =>
    intro d' hd'
    have hcases := h.evolves.2 d' hd'
    have hold : p.farClosed = true ∨ ∀ d ∈ p.far, d.rx.txLive = false := by
      cases h with
      | farShut hb hl => exact Or.inr hl
      | _ => exact Or.inl hc
    rcases hcases with ⟨d, hd, hev⟩ | ⟨hopen, _⟩
    · by_contra hlive
      have hdead := hold.elim (fun hc => ih hc d hd) fun hl => hl d hd
      rw [hev.txLive (by simpa using hlive)] at hdead
      cases hdead
    · rw [hc] at hopen
      cases hopen

end Reachable

end Pair

end RustDesk.PortForward
