import RustDesk.PortForward.Tasks
import RustDesk.PortForward.Teardown

/-!
# Two honest endpoints and the stream between them

The controller and the controlled side with one FIFO each way. Every frame an endpoint is handed
is the head of the stream from the other; a window update of the controller may have overtaken
data before the two queues of `tunnel_loop` meet in the stream. `origin` records for every channel
of the controlled side which of the controller's channels its `open` came from; no code reads it.

`System.Routed` says where everything on its way comes from.
-/

namespace RustDesk.PortForward

variable {t : String} {s : System} {h h' : TunnelHandle} {m : PortForwardMux} {a : HandleAct}
  {out : Option Sent}

structure System where
  controller : TunnelHandle
  controlled : PortForwardMux
  toControlled : List Sent
  toController : List Sent
  origin : List (Option ℕ)
  deriving DecidableEq

inductive SystemAct where
  | controller (a : HandleAct)
  | controlled (a : MuxAct)
  | toController
  | toControlled (permitted : Bool)
  deriving DecidableEq

namespace System

def new (loginTarget : String) : System := ⟨.new, .new loginTarget, [], [], []⟩

/-- The head of the stream is handled by the controller. -/
def deliverController (s : System) : Option System :=
  match s.toController with
  | x :: rest => (s.controller.step (.frame x.frame)).map fun (h, _) =>
      { s with controller := h, toController := rest }
  | [] => none

/-- The head of the stream is handled by the controlled side. -/
def deliverControlled (s : System) (permitted : Bool) : Option System :=
  match s.toControlled with
  | x :: rest => (s.controlled.step (.frame x.frame permitted)).map fun (m, _) =>
      { s with
        controlled := m
        toControlled := rest
        origin := s.origin ++ List.replicate (m.chans.length - s.controlled.chans.length) x.task }
  | [] => none

def step (s : System) : SystemAct → Option System
  | .controller (.frame _) => none
  | .controller a => (s.controller.step a).map fun (h, out) =>
      { s with controller := h, toControlled := s.toControlled ++ out.toList }
  | .controlled (.frame _ _) => none
  | .controlled a => (s.controlled.step a).map fun (m, out) =>
      { s with controlled := m, toController := s.toController ++ out.toList }
  | .toController => s.deliverController
  | .toControlled permitted => s.deliverControlled permitted

/-- Everything a step of the system can do. -/
inductive Rule (s : System) : System → Prop where
  | controller {a : HandleAct} {h : TunnelHandle} {out : Option Sent} (ha : ∀ f, a ≠ .frame f)
      (hr : TunnelHandle.Rule s.controller a h out) :
      Rule s { s with controller := h, toControlled := s.toControlled ++ out.toList }
  | controlled {a : MuxAct} {m : PortForwardMux} {out : Option Sent} (ha : ∀ f p, a ≠ .frame f p)
      (hr : PortForwardMux.Rule s.controlled a m out) :
      Rule s { s with controlled := m, toController := s.toController ++ out.toList }
  | toController {x : Sent} {rest : List Sent} (hl : s.controller.loop = .running)
      (hq : s.toController = x :: rest) :
      Rule s { s with controller := s.controller.onFrame x.frame, toController := rest }
  | toControlled {x : Sent} {rest : List Sent} {permitted : Bool}
      (hl : s.controlled.loop = .running) (hq : s.toControlled = x :: rest) :
      Rule s { s with
        controlled := s.controlled.handle permitted x.frame
        toControlled := rest
        origin := s.origin ++ List.replicate
          ((s.controlled.handle permitted x.frame).chans.length - s.controlled.chans.length)
          x.task }

/-- A step of the system is a step of one of its endpoints. -/
structure Steps (s s' : System) : Prop where
  rule : Rule s s'
  controller : s'.controller = s.controller ∨
    ∃ a, handleLts.step s.controller a = some s'.controller
  controlled : s'.controlled = s.controlled ∨
    ∃ t a, (muxLts t).step s.controlled a = some s'.controlled

lemma Steps.of_step {s' : System} {a : SystemAct} (h : s.step a = some s') : Steps s s' := by
  unfold step at h
  split at h
  · cases h
  · rename_i a ha
    obtain ⟨⟨h', out⟩, hst, heq⟩ := Option.map_eq_some_iff.mp h
    cases heq
    refine ⟨.controller (fun f hf => ha f (by rw [hf])) (.of_step hst), Or.inr ⟨a, ?_⟩, Or.inl rfl⟩
    simp [handleLts, hst]
  · cases h
  · rename_i a ha
    obtain ⟨⟨m', out⟩, hst, heq⟩ := Option.map_eq_some_iff.mp h
    cases heq
    refine ⟨.controlled (fun f p hf => ha f p (by rw [hf])) (.of_step hst), Or.inl rfl,
      Or.inr ⟨"", a, ?_⟩⟩
    simp [muxLts, hst]
  · unfold deliverController at h
    split at h
    · rename_i x rest hq
      obtain ⟨⟨h', out⟩, hst, heq⟩ := Option.map_eq_some_iff.mp h
      cases heq
      cases TunnelHandle.Rule.of_step hst with
      | frame hl =>
        refine ⟨.toController hl hq, Or.inr ⟨.frame x.frame, ?_⟩, Or.inl rfl⟩
        simp [handleLts, hst]
    · cases h
  · unfold deliverControlled at h
    split at h
    · rename_i permitted _ x rest hq
      obtain ⟨⟨m', out⟩, hst, heq⟩ := Option.map_eq_some_iff.mp h
      cases heq
      cases PortForwardMux.Rule.of_step hst with
      | frame hl =>
        refine ⟨.toControlled hl hq, Or.inl rfl, Or.inr ⟨"", .frame x.frame permitted, ?_⟩⟩
        simp [muxLts, hst]
    · cases h

end System

/-- The two endpoints of one tunnel. -/
def systemLts (loginTarget : String) : LTS System SystemAct where
  init s := s = System.new loginTarget
  step s a := s.step a

/-- Each endpoint is in a state it can reach against some peer. -/
lemma systemLts_endpoints (hr : (systemLts t).Reachable s) :
    handleLts.Reachable s.controller ∧ (muxLts t).Reachable s.controlled := by
  refine hr.invariant (P := fun s => handleLts.Reachable s.controller ∧
    (muxLts t).Reachable s.controlled) ?_ ?_
  · rintro _ rfl
    exact ⟨.init rfl, .init rfl⟩
  · rintro s a s' _ ⟨hh, hm⟩ hs
    have hsteps := System.Steps.of_step hs
    constructor
    · rcases hsteps.controller with heq | ⟨a, ha⟩
      · exact heq ▸ hh
      · exact hh.step ha
    · rcases hsteps.controlled with heq | ⟨_, a, ha⟩
      · exact heq ▸ hm
      · exact hm.step ha

/-! ### One live entry per id -/

/-- The map holds at most one entry per id. -/
def LiveUnique (chans : List Channel) : Prop :=
  ∀ (i j : ℕ) (c d : Channel), chans[i]? = some c → chans[j]? = some d → c.rx.txLive = true →
    d.rx.txLive = true → c.id = d.id → i = j

namespace LiveUnique

variable {l l' : List Channel} {c : Channel}

/-- No entry comes back to life. -/
lemma grows (h : LiveUnique l) (hg : Grows (fun _ => False) l l') : LiveUnique l' := by
  intro i j c' d' hc' hd' htc htd hid
  rcases hg.2 i c' hc' with ⟨c, hc, hcev⟩ | ⟨_, hf⟩
  · rcases hg.2 j d' hd' with ⟨d, hd, hdev⟩ | ⟨_, hf⟩
    · rw [hcev.id_eq.1, hdev.id_eq.1] at hid
      exact h i j c d hc hd (hcev.txLive htc) (hdev.txLive htd) hid
    · exact hf.elim
  · exact hf.elim

lemma append (h : LiveUnique l) (hfree : findEntry l c.id = none) : LiveUnique (l ++ [c]) := by
  -- an entry of the same id in `l` would have been found
  have hne : ∀ (k : ℕ) (d : Channel), l[k]? = some d → d.rx.txLive = true → d.id ≠ c.id :=
    fun k d hd ht => findEntry_eq_none hfree d (List.mem_of_getElem? hd) ht
  intro i j a b ha hb hta htb hid
  rw [List.getElem?_append] at ha hb
  split_ifs at ha hb with hi hj hj
  · exact h i j a b ha hb hta htb hid
  · obtain ⟨_, rfl⟩ := List.getElem?_eq_some_iff.mp hb
    simp only [List.getElem_singleton] at hid
    exact (hne i a ha hta hid).elim
  · obtain ⟨_, rfl⟩ := List.getElem?_eq_some_iff.mp ha
    simp only [List.getElem_singleton] at hid
    exact (hne j b hb htb hid.symm).elim
  · have hi' := (List.getElem?_eq_some_iff.mp ha).1
    have hj' := (List.getElem?_eq_some_iff.mp hb).1
    simp only [List.length_singleton] at hi' hj'
    omega

lemma findEntry_eq (h : LiveUnique l) {i : ℕ} (hc : l[i]? = some c) (ht : c.rx.txLive = true) :
    findEntry l c.id = some i := by
  cases hf : findEntry l c.id with
  | none => exact (findEntry_eq_none hf c (List.mem_of_getElem? hc) ht rfl).elim
  | some j =>
    obtain ⟨d, hd, htd, hid⟩ := findEntry_eq_some hf
    rw [h i j c d hc hd ht htd hid.symm]

end LiveUnique

lemma handleLts_liveUnique (hr : handleLts.Reachable h) : LiveUnique h.chans := by
  refine hr.invariant (P := fun h => LiveUnique h.chans) ?_ ?_
  · rintro _ rfl
    intro i j c d hc
    simp [TunnelHandle.new] at hc
  · intro h a h' _ ih hs
    have hg := handleLts_grows h a h' hs
    obtain ⟨out, hrule⟩ := handleLts_rule hs
    rcases hrule.length_eq with ⟨hlen, _⟩ | ⟨_, call, rest, rfl⟩
    · refine ih.grows ⟨hlen.ge, fun i c' hc' => ?_⟩
      rcases hg.2 i c' hc' with hold | ⟨hnone, _⟩
      · exact Or.inl hold
      · have := (List.getElem?_eq_some_iff.mp hc').1
        have := List.getElem?_eq_none_iff.mp hnone
        omega
    · rcases TunnelHandle.insert_cases { h with calls := rest } call with
        heq | ⟨hcap, id, next, halloc, heq⟩ <;> rw [heq]
      · exact ih
      · refine ih.append ?_
        have hfree := allocId_free (by decide : maxChannels < 2 ^ 32) hcap.le h.nextId
        rwa [halloc] at hfree

lemma muxLts_liveUnique (hr : (muxLts t).Reachable m) : LiveUnique m.chans := by
  refine hr.invariant (P := fun m => LiveUnique m.chans) ?_ ?_
  · rintro _ rfl
    intro i j c d hc
    simp [PortForwardMux.new] at hc
  · intro m a m' _ ih hs
    obtain ⟨out, hrule⟩ := muxLts_rule hs
    rcases hrule.grows_or_new with hg | ⟨_, id, window, u, hfree, heq⟩
    · exact ih.grows hg
    · rw [heq]
      exact (ih.grows (PortForwardMux.grows_retainOpen _)).append hfree

/-! ### Where the frames on their way come from -/

/-- A frame some channel's task has emitted. -/
def Emitted (chans : List Channel) (x : Sent) : Prop :=
  ∃ (i : ℕ) (c : Channel), x.task = some i ∧ chans[i]? = some c ∧ x.frame ∈ c.log

/-- A refusal with which `on_open` has answered one of the controller's channels. -/
def Replied (chans : List Channel) (x : Sent) : Prop :=
  x.task = none ∧ ∃ (i : ℕ) (c : Channel) (m : String), chans[i]? = some c ∧
    x.frame = .openedMsg c.id false m 0

lemma Channel.Evolves.mem_log {c c' : Channel} (h : c.Evolves c') {f : Frame} (hf : f ∈ c.log) :
    f ∈ c'.log := by
  refine h.invariant (P := fun c => f ∈ c.log) ?_ hf
  intro env d d' e hd hm
  rcases hm.task_or_same with hr | ⟨hs, _⟩
  · rw [hr.log_eq]
    exact List.mem_append_left _ hd
  · rw [hs.log]
    exact hd

section Grown

variable {P : Channel → Prop} {l l' : List Channel} {x : Sent}

lemma Emitted.grows (h : Emitted l x) (hg : Grows P l l') : Emitted l' x := by
  obtain ⟨i, c, hi, hc, hf⟩ := h
  obtain ⟨c', hc', hev⟩ := hg.getElem? hc
  exact ⟨i, c', hi, hc', hev.mem_log hf⟩

lemma Replied.grows (h : Replied l x) (hg : Grows P l l') : Replied l' x := by
  obtain ⟨hnone, i, c, m, hc, hf⟩ := h
  obtain ⟨c', hc', hev⟩ := hg.getElem? hc
  exact ⟨hnone, i, c', m, hc', by rw [hf, hev.id_eq.1]⟩

lemma Emitted.lt_length (h : Emitted l x) {i : ℕ} (hi : x.task = some i) : i < l.length := by
  obtain ⟨j, c, hj, hc, _⟩ := h
  rw [hi] at hj
  cases hj
  exact (List.getElem?_eq_some_iff.mp hc).1

end Grown

/-- What a step of the controller's end does to its queues: it adds what a task has emitted, each
frame to the queue of its kind, and what it puts on the stream comes from one of them. -/
structure TunnelHandle.Queues (h h' : TunnelHandle) (out : Option Sent) : Prop where
  control : ∀ x ∈ h'.control, x ∈ h.control ∨ (x.frame.isControl = true ∧ Emitted h'.chans x)
  data : ∀ x ∈ h'.data, x ∈ h.data ∨ (x.frame.isControl = false ∧ Emitted h'.chans x)
  out : ∀ x ∈ out.toList, x ∈ h.data ∨ x ∈ h.control

lemma TunnelHandle.Rule.queues (hr : Rule h a h' out) : h.Queues h' out := by
  cases hr with
  | @task i a c c' e hc hr =>
    have hlt := (List.getElem?_eq_some_iff.mp hc).1
    cases e with
    | none => exact ⟨fun x hx => Or.inl hx, fun x hx => Or.inl hx, by simp⟩
    | some f =>
      have hem : Emitted (({ h with chans := h.chans.set i c' } : TunnelHandle).enqueue i
          (some f)).chans ⟨some i, f⟩ := by
        refine ⟨i, c', rfl, ?_, ?_⟩
        · simp [hlt]
        · simp [hr.log_eq]
      cases hf : f.isControl with
      | true =>
        refine ⟨fun x hx => ?_, fun x hx => Or.inl ?_, by simp⟩
        · simp only [enqueue, hf, if_true, List.mem_append, List.mem_singleton] at hx
          rcases hx with hx | rfl
          · exact Or.inl hx
          · exact Or.inr ⟨hf, hem⟩
        · simpa [enqueue, hf] using hx
      | false =>
        refine ⟨fun x hx => Or.inl ?_, fun x hx => ?_, by simp⟩
        · simpa [enqueue, hf] using hx
        · simp only [enqueue, hf, Bool.false_eq_true, if_false, List.mem_append,
            List.mem_singleton] at hx
          rcases hx with hx | rfl
          · exact Or.inl hx
          · exact Or.inr ⟨hf, hem⟩
  | insert hc =>
    rename_i call rest
    rcases insert_cases { h with calls := rest } call with heq | ⟨_, id, next, _, heq⟩ <;>
      rw [heq] <;> exact ⟨fun x hx => Or.inl hx, fun x hx => Or.inl hx, by simp⟩
  | @frame f hl =>
    cases f <;> exact ⟨fun x hx => Or.inl hx, fun x hx => Or.inl hx, by simp⟩
  | writeControl hl hq =>
    refine ⟨fun x hx => Or.inl ?_, fun x hx => Or.inl hx, fun x hx => Or.inr ?_⟩ <;> rw [hq]
    · exact List.mem_cons_of_mem _ hx
    · exact List.mem_cons.mpr (.inl (by simpa using hx))
  | writeData hl hq =>
    refine ⟨fun x hx => Or.inl hx, fun x hx => Or.inl ?_, fun x hx => Or.inl ?_⟩ <;> rw [hq]
    · exact List.mem_cons_of_mem _ hx
    · exact List.mem_cons.mpr (.inl (by simpa using hx))
  | drop hl => exact ⟨by simp, by simp, by simp⟩
  | _ => exact ⟨fun x hx => Or.inl hx, fun x hx => Or.inl hx, by simp⟩

/-- Outside `tunnel_loop` nothing is written, and leaving it clears the map. -/
lemma TunnelHandle.Rule.late (hr : Rule h a h' out) (hl' : h'.loop ≠ .running) :
    out = none ∧ (h.loop ≠ .running ∨ ∀ c ∈ h'.chans, c.rx.txLive = false) := by
  cases hr with
  | insert hc =>
    rw [insert_loop] at hl'
    exact ⟨rfl, Or.inl hl'⟩
  | task hc hr =>
    rw [enqueue_loop] at hl'
    exact ⟨rfl, Or.inl hl'⟩
  | frame hl =>
    rw [onFrame_loop] at hl'
    exact ⟨rfl, Or.inl hl'⟩
  | clear hl =>
    refine ⟨rfl, Or.inr fun c hc => ?_⟩
    obtain ⟨d, _, rfl⟩ := List.mem_map.mp hc
    rfl
  | signal hl | drop hl => exact ⟨rfl, Or.inl (by simp [hl])⟩
  | writeControl hl | writeData hl => exact (hl' hl).elim
  | _ => exact ⟨rfl, Or.inl hl'⟩

lemma Grows.length_eq {l l' : List Channel} (h : Grows (fun _ => False) l l') :
    l'.length = l.length := by
  refine le_antisymm ?_ h.1
  by_contra hlt
  have hlt : l.length < l'.length := by omega
  rcases h.2 l.length l'[l.length] (List.getElem?_eq_getElem hlt) with ⟨c, hc, _⟩ | ⟨_, hf⟩
  · simp at hc
  · exact hf

/-- What a step of the controlled end other than a frame does to its channels and its sink. -/
structure PortForwardMux.Queues (m m' : PortForwardMux) (out : Option Sent) : Prop where
  grows : Grows (fun _ => False) m.chans m'.chans
  tx : ∀ x ∈ m'.tx, x ∈ m.tx ∨ Emitted m'.chans x
  out : ∀ x ∈ out.toList, x ∈ m.tx

lemma PortForwardMux.Rule.queues {m' : PortForwardMux} {a : MuxAct} (ha : ∀ f p, a ≠ .frame f p)
    (hr : Rule m a m' out) : m.Queues m' out := by
  cases hr with
  | @task i a c c' e hc hr =>
    have hlt := (List.getElem?_eq_some_iff.mp hc).1
    refine ⟨by rw [enqueue_chans]; exact .set hc (.of_moves m.env (.task hr)), ?_, by simp⟩
    intro x hx
    cases e with
    | none => exact Or.inl hx
    | some f =>
      rcases List.mem_append.mp hx with hx | hx
      · exact Or.inl hx
      · rw [List.mem_singleton.mp hx]
        refine Or.inr ⟨i, c', rfl, ?_, ?_⟩
        · simp [hlt]
        · simp [hr.log_eq]
  | finishAdd hc hf =>
    exact ⟨.set hc (.of_moves m.env (.finishAdd hf)), fun x hx => Or.inl hx, by simp⟩
  | frame hl => exact (ha _ _ rfl).elim
  | write hl hq =>
    refine ⟨.refl _, fun x hx => Or.inl ?_, fun x hx => ?_⟩ <;> rw [hq]
    · exact List.mem_cons_of_mem _ hx
    · exact List.mem_cons.mpr (.inl (by simpa using hx))
  | clear hl =>
    exact ⟨.map fun _ => .of_moves m.env .drop, fun x hx => Or.inl hx, by simp⟩
  | signal hl => exact ⟨.refl _, fun x hx => Or.inl hx, by simp⟩
  | drop hl => exact ⟨.refl _, by simp, by simp⟩

/-- A frame changes channels that exist, or it is an `open` that is refused or accepted. -/
lemma PortForwardMux.handle_cases (m : PortForwardMux) (permitted : Bool) (f : Frame) :
    (Grows (fun _ => False) m.chans (m.handle permitted f).chans ∧
      (m.handle permitted f).tx = m.tx) ∨
    (∃ id host port window message, f = .openMsg id host port window ∧
      m.handle permitted f = { m with
        chans := retainOpen m.chans
        tx := m.tx ++ [⟨none, .openedMsg id false message 0⟩] }) ∨
    (∃ id host port window u, f = .openMsg id host port window ∧
      m.handle permitted f =
        { m with chans := retainOpen m.chans ++ [Channel.controlled id window u] }) := by
  cases f with
  | openMsg id host port window =>
    rcases m.onOpen_cases id host port window permitted with
      ⟨message, heq⟩ | ⟨_, heq⟩ | ⟨_, _, u, heq⟩
    · exact Or.inr (Or.inl ⟨_, _, _, _, message, rfl, heq⟩)
    · left
      rw [handle, heq]
      exact ⟨grows_retainOpen _, rfl⟩
    · exact Or.inr (Or.inr ⟨_, _, _, _, u, rfl, heq⟩)
  | openedMsg id success message window => exact Or.inl ⟨.refl _, rfl⟩
  | dataMsg id b => exact Or.inl ⟨.withEntry fun _ ht => .of_moves m.env (.data b ht), rfl⟩
  | closeMsg id => exact Or.inl ⟨.withEntry fun _ ht => .of_moves m.env (.close ht), rfl⟩
  | windowUpdateMsg id n =>
    exact Or.inl ⟨.withEntry fun _ ht => .of_moves m.env (.windowUpdate n ht), rfl⟩

namespace System

/-- Where everything on its way comes from. -/
structure Routed (s : System) : Prop where
  control : ∀ x ∈ s.controller.control, x.frame.isControl = true
  data : ∀ x ∈ s.controller.data, x.frame.isControl = false
  sent : ∀ x, x ∈ s.toControlled ∨ x ∈ s.controller.data ∨ x ∈ s.controller.control →
    Emitted s.controller.chans x
  back : ∀ x, x ∈ s.toController ∨ x ∈ s.controlled.tx →
    Emitted s.controlled.chans x ∨ Replied s.controller.chans x
  length : s.origin.length = s.controlled.chans.length
  origin : ∀ (j : ℕ) (d : Channel), s.controlled.chans[j]? = some d → ∃ (i : ℕ) (c : Channel),
    s.origin[j]? = some (some i) ∧ s.controller.chans[i]? = some c ∧ d.id = c.id
  /-- a channel that `open` has added after the map was cleared has nothing on the stream -/
  late : s.controller.loop ≠ .running → ∀ (i : ℕ) (c : Channel), s.controller.chans[i]? = some c →
    c.rx.txLive = true → framesOf i s.toControlled = [] ∧ some i ∉ s.origin

namespace Routed

variable {s' : System} {i : ℕ} {x : Sent} {rest : List Sent}

/-- No channel that is still to come has anything on its way. -/
lemma framesOf_eq_nil (h : s.Routed) (hi : s.controller.chans.length ≤ i) :
    framesOf i s.toControlled = [] ∧ framesOf i s.controller.data = [] ∧
      framesOf i s.controller.control = [] := by
  have hnil : ∀ q : List Sent, (∀ x ∈ q, Emitted s.controller.chans x) → framesOf i q = [] := by
    intro q hq
    have : q.filter (fun x => x.task = some i) = [] := by
      refine List.filter_eq_nil_iff.mpr fun x hx heq => ?_
      have := (hq x hx).lt_length (by simpa using heq)
      omega
    simp [framesOf, this]
  exact ⟨hnil _ fun x hx => h.sent x (Or.inl hx), hnil _ fun x hx => h.sent x (Or.inr (Or.inl hx)),
    hnil _ fun x hx => h.sent x (Or.inr (Or.inr hx))⟩

lemma notMem_origin (h : s.Routed) (hi : s.controller.chans.length ≤ i) : some i ∉ s.origin := by
  intro hmem
  obtain ⟨j, hj, hget⟩ := List.mem_iff_getElem.mp hmem
  have hlt : j < s.controlled.chans.length := h.length ▸ hj
  obtain ⟨i', c, hi', hc, _⟩ := h.origin j _ (List.getElem?_eq_getElem hlt)
  rw [List.getElem?_eq_getElem hj, hget] at hi'
  cases hi'
  have := (List.getElem?_eq_some_iff.mp hc).1
  omega

variable (hs : s.Routed)

include hs

lemma controller (hr : TunnelHandle.Rule s.controller a h out) :
    ({ s with controller := h, toControlled := s.toControlled ++ out.toList } : System).Routed := by
  have hg := hr.grows
  have hq := hr.queues
  refine ⟨fun x hx => ?_, fun x hx => ?_, fun x hx => ?_, fun x hx => ?_, hs.length,
    fun j d hd => ?_, fun hl i c' hc' ht => ?_⟩
  · rcases hq.control x hx with hx | ⟨hk, _⟩
    · exact hs.control x hx
    · exact hk
  · rcases hq.data x hx with hx | ⟨hk, _⟩
    · exact hs.data x hx
    · exact hk
  · rcases hx with hx | hx | hx
    · rcases List.mem_append.mp hx with hx | hx
      · exact (hs.sent x (Or.inl hx)).grows hg
      · exact (hs.sent x (Or.inr (hq.out x hx))).grows hg
    · rcases hq.data x hx with hx | ⟨_, hem⟩
      · exact (hs.sent x (Or.inr (Or.inl hx))).grows hg
      · exact hem
    · rcases hq.control x hx with hx | ⟨_, hem⟩
      · exact (hs.sent x (Or.inr (Or.inr hx))).grows hg
      · exact hem
  · exact (hs.back x hx).imp_right fun hrep => hrep.grows hg
  · obtain ⟨i, c, hi, hc, hid⟩ := hs.origin j d hd
    obtain ⟨c', hc', hev⟩ := hg.getElem? hc
    exact ⟨i, c', hi, hc', hid.trans hev.id_eq.1.symm⟩
  · obtain ⟨rfl, hloop⟩ := hr.late hl
    rw [Option.toList_none, List.append_nil]
    rcases hg.2 i c' hc' with ⟨c, hc, hev⟩ | ⟨hnone, _⟩
    · rcases hloop with hloop | hdead
      · exact hs.late hloop i c hc (hev.txLive ht)
      · rw [hdead c' (List.mem_of_getElem? hc')] at ht
        cases ht
    · have hi := List.getElem?_eq_none_iff.mp hnone
      exact ⟨(hs.framesOf_eq_nil hi).1, hs.notMem_origin hi⟩

/-- The controlled side moves on; what it adds to its sink its tasks have emitted. -/
lemma controlled {q : List Sent} (hg : Grows (fun _ => False) s.controlled.chans m.chans)
    (hq : ∀ x, x ∈ q ∨ x ∈ m.tx → (x ∈ s.toController ∨ x ∈ s.controlled.tx) ∨ Emitted m.chans x) :
    ({ s with controlled := m, toController := q } : System).Routed := by
  refine ⟨hs.control, hs.data, hs.sent, fun x hx => ?_, hs.length.trans hg.length_eq.symm,
    fun j d' hd' => ?_, hs.late⟩
  · rcases hq x hx with hx | hem
    · exact (hs.back x hx).imp_left fun hem => hem.grows hg
    · exact Or.inl hem
  · rcases hg.2 j d' hd' with ⟨d, hd, hev⟩ | ⟨_, hf⟩
    · obtain ⟨i, c, hi, hc, hid⟩ := hs.origin j d hd
      exact ⟨i, c, hi, hc, hev.id_eq.1.trans hid⟩
    · exact hf.elim

lemma pop (hq : s.toControlled = x :: rest) :
    ({ s with toControlled := rest } : System).Routed := by
  refine ⟨hs.control, hs.data, fun y hy => hs.sent y ?_, hs.back, hs.length, hs.origin,
    fun hl i c hc ht => ?_⟩
  · rw [hq]
    exact hy.imp_left (List.mem_cons_of_mem x)
  · obtain ⟨hnil, hnot⟩ := hs.late hl i c hc ht
    rw [hq, ← List.singleton_append, framesOf_append] at hnil
    exact ⟨(List.append_eq_nil_iff.mp hnil).2, hnot⟩

lemma toControlled {permitted : Bool} (hlog : ∀ c ∈ s.controller.chans, c.Emits)
    (hq : s.toControlled = x :: rest) : ({ s with
        controlled := s.controlled.handle permitted x.frame
        toControlled := rest
        origin := s.origin ++ List.replicate
          ((s.controlled.handle permitted x.frame).chans.length - s.controlled.chans.length)
          x.task } : System).Routed := by
  obtain ⟨i, c, hi, hc, hf⟩ := hs.sent x (by simp [hq])
  have hid := (hlog c (List.mem_of_getElem? hc)).own x.frame hf
  have hpop := hs.pop hq
  have hret := hpop.controlled (m := { s.controlled with
    chans := PortForwardMux.retainOpen s.controlled.chans }) (PortForwardMux.grows_retainOpen _)
    fun y hy => Or.inl hy
  rcases s.controlled.handle_cases permitted x.frame with
    ⟨hg, htx⟩ | ⟨id, host, port, window, message, hx, heq⟩ | ⟨id, host, port, window, u, hx, heq⟩
  · rw [hg.length_eq, Nat.sub_self, List.replicate_zero, List.append_nil]
    exact hpop.controlled hg fun y hy => Or.inl (by rwa [htx] at hy)
  · have hlen : (PortForwardMux.retainOpen s.controlled.chans).length - s.controlled.chans.length
        = 0 := by simp [PortForwardMux.retainOpen]
    rw [heq, hlen, List.replicate_zero, List.append_nil]
    refine ⟨hret.control, hret.data, hret.sent, fun y hy => ?_, hret.length, hret.origin, hret.late⟩
    rcases hy with hy | hy
    · exact hret.back y (Or.inl hy)
    · rcases List.mem_append.mp hy with hy | hy
      · exact hret.back y (Or.inr hy)
      · -- the refusal answers the `open` of the channel that emitted it
        rw [List.mem_singleton.mp hy]
        rw [hx] at hid
        exact Or.inr ⟨rfl, i, c, message, hc, by rw [← hid]; rfl⟩
  · have hlen : (PortForwardMux.retainOpen s.controlled.chans ++
        [Channel.controlled id window u]).length - s.controlled.chans.length = 1 := by
      simp [PortForwardMux.retainOpen]
    have hretlen : s.origin.length = (PortForwardMux.retainOpen s.controlled.chans).length :=
      hret.length
    rw [heq, hlen, List.replicate_one, hi]
    refine ⟨hret.control, hret.data, hret.sent, fun y hy => ?_, ?_, fun j d hd => ?_,
      fun hl k e he ht => ?_⟩
    · exact (hret.back y hy).imp_left fun hem => hem.grows (.append (P := fun _ => True) trivial)
    · simp [hretlen]
    · rcases lt_or_ge j s.origin.length with hj | hj
      · rw [List.getElem?_append_left (hretlen ▸ hj)] at hd
        rw [List.getElem?_append_left hj]
        exact hret.origin j d hd
      · rw [List.getElem?_append_right (hretlen ▸ hj)] at hd
        obtain ⟨hj', rfl⟩ := List.getElem?_eq_some_iff.mp hd
        have : j = s.origin.length := by simp at hj'; omega
        subst this
        refine ⟨i, c, by simp, hc, ?_⟩
        rw [List.getElem_singleton, ← hid, hx]
        rfl
    · obtain ⟨hnil, hnot⟩ := hs.late hl k e he ht
      refine ⟨(hret.late hl k e he ht).1, ?_⟩
      rw [List.mem_append, List.mem_singleton]
      rintro (hmem | heq)
      · exact hnot hmem
      · cases heq
        have hx' : x = ⟨some i, x.frame⟩ := by rw [← hi]
        rw [hq, hx', framesOf_cons_self] at hnil
        cases hnil

lemma step (hlog : ∀ c ∈ s.controller.chans, c.Emits) (hr : Rule s s') : s'.Routed := by
  cases hr with
  | controller ha hr => exact hs.controller hr
  | controlled ha hr =>
    have hqueues := hr.queues ha
    refine hs.controlled hqueues.grows fun x hx => ?_
    rcases hx with hx | hx
    · rcases List.mem_append.mp hx with hx | hx
      · exact Or.inl (Or.inl hx)
      · exact Or.inl (Or.inr (hqueues.out x hx))
    · exact (hqueues.tx x hx).imp_left Or.inr
  | @toController x rest hl hq =>
    have hframe := hs.controller (.frame (f := x.frame) hl)
    rw [Option.toList_none, List.append_nil] at hframe
    refine ⟨hframe.control, hframe.data, hframe.sent, fun y hy => hframe.back y ?_, hframe.length,
      hframe.origin, hframe.late⟩
    rw [hq]
    exact hy.imp_left (List.mem_cons_of_mem x)
  | toControlled hl hq => exact hs.toControlled hlog hq

end Routed

end System

lemma systemLts_routed (hr : (systemLts t).Reachable s) : s.Routed := by
  refine hr.invariant (P := System.Routed) ?_ ?_
  · rintro _ rfl
    exact ⟨by simp [System.new, TunnelHandle.new], by simp [System.new, TunnelHandle.new],
      by simp [System.new, TunnelHandle.new], by simp [System.new, PortForwardMux.new], rfl,
      by simp [System.new, PortForwardMux.new], by simp [System.new, TunnelHandle.new]⟩
  · intro s a s' hreach ih hs
    have hlogged := handleLts_logged (systemLts_endpoints hreach).1
    exact ih.step (fun c hc => (hlogged c hc).2.cases.emits) (System.Steps.of_step hs).rule

end RustDesk.PortForward
