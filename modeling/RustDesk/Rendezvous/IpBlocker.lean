import RustDesk.Lib.Transition
import RustDesk.Rendezvous.RegisterPk

/-!
# How often an address may register

`check_ip_blocker` counts the requests of an address in bursts, which end when the address is quiet
for a minute, and the ids it asked for, which are forgotten when no id was taken in for a day. The
first request of an address is counted in neither, nor is the id that a day's silence clears.

The calls of each address are kept beside the server, with what the check did in each.
-/

namespace RustDesk.Rendezvous.Blocker

variable {later earlier : List Call}

/-- A call of `check_ip_blocker` and what came of it. -/
structure Call where
  now : ℕ
  id : String
  accepted : Bool
  /-- the ids of the address were forgotten -/
  cleared : Bool
  /-- a new id was refused because the address has too many -/
  overLimit : Bool
  deriving DecidableEq

/-- The calls since the ids were last forgotten, that call included; the latest comes first. -/
def sinceClear : List Call → List Call
  | [] => []
  | c :: cs => if c.cleared then [c] else c :: sinceClear cs

/-- The server with the calls of each address so far, the latest first. -/
structure Gate where
  server : Server
  calls : Bytes → List Call

namespace Gate

/-- The count of the address does not stop the call. -/
def counted (s : Server) (old : IpBlock) : Bool :=
  !(elapsedSecs s.now old.since ≤ ipBlockDur && old.count > 30)

def clears (s : Server) (ip : Bytes) : Bool :=
  (s.ipBlocker ip).any fun old => counted s old && elapsedSecs s.now old.idsSince > daySeconds

def refusesNew (s : Server) (ip : Bytes) (id : String) : Bool :=
  (s.ipBlocker ip).any fun old => counted s old && elapsedSecs s.now old.idsSince ≤ daySeconds &&
    old.ids.length > 300 && !old.ids.contains id

/-- A request of `ip` for `id` at the time `now`, which is not before the last one. -/
def step (g : Gate) : Bytes × String × ℕ → Option Gate
  | (ip, id, now) =>
    if g.server.now ≤ now then
      let s := { g.server with now }
      let call := ⟨now, id, (s.checkIpBlocker ip id).1, clears s ip, refusesNew s ip id⟩
      some ⟨(s.checkIpBlocker ip id).2, Function.update g.calls ip (call :: g.calls ip)⟩
    else none

end Gate

/-- The blocker of a server that starts without an entry. -/
def ipGate : LTS Gate (Bytes × String × ℕ) where
  init g := g.server.ipBlocker = (fun _ => none) ∧ g.calls = fun _ => []
  step := Gate.step

/-! ### What a call does to the entry of its address -/

/-- The entry before and after a call, and the call. -/
inductive Checked (now : ℕ) (id : String) : Option IpBlock → IpBlock → Call → Prop where
  | first : Checked now id none ⟨0, now, [], now⟩ ⟨now, id, true, false, false⟩
  | tooOften {old : IpBlock} : Checked now id (some old) old ⟨now, id, false, false, false⟩
  | forgotten {old : IpBlock} {count : UInt32} (hcount : count.toNat ≤ 31)
    (hquiet : ipBlockDur < elapsedSecs now old.since ∨ count.toNat = old.count.toNat + 1) :
    Checked now id (some old) ⟨count, now, if id ∈ old.ids then [] else [id], now⟩
      ⟨now, id, true, true, false⟩
  | full {old : IpBlock} {count : UInt32} (hcount : count.toNat ≤ 31)
    (hquiet : ipBlockDur < elapsedSecs now old.since ∨ count.toNat = old.count.toNat + 1)
    (hfull : 300 < old.ids.length) :
    Checked now id (some old) { old with count, since := now }
      ⟨now, id, old.ids.contains id, false, !old.ids.contains id⟩
  | noted {old : IpBlock} {count : UInt32} (hcount : count.toNat ≤ 31)
    (hquiet : ipBlockDur < elapsedSecs now old.since ∨ count.toNat = old.count.toNat + 1)
    (hroom : old.ids.length ≤ 300) :
    Checked now id (some old) ⟨count, now, if id ∈ old.ids then old.ids else id :: old.ids, now⟩
      ⟨now, id, true, false, false⟩

variable {s : Server} {ip : Bytes} {id : String} {now : ℕ} {g g' : Gate}

lemma count_of_counted {old : IpBlock}
    (h : ¬(elapsedSecs now old.since ≤ ipBlockDur ∧ old.count > 30)) :
    let count := (if elapsedSecs now old.since > ipBlockDur then 0 else old.count) + 1
    count.toNat ≤ 31 ∧
      (ipBlockDur < elapsedSecs now old.since ∨ count.toNat = old.count.toNat + 1) := by
  dsimp only
  by_cases hquiet : elapsedSecs now old.since > ipBlockDur
  · rw [if_pos hquiet]
    exact ⟨by decide, .inl hquiet⟩
  · rw [if_neg hquiet]
    have hle : old.count.toNat ≤ 30 := by
      have : ¬old.count > 30 := fun hmany => h ⟨not_lt.mp hquiet, hmany⟩
      simpa [UInt32.lt_iff_toNat_lt] using this
    have hadd : (old.count + 1).toNat = old.count.toNat + 1 := by
      rw [UInt32.toNat_add]
      simp
      omega
    exact ⟨by omega, .inr hadd⟩

/-- Every call is one of these, and touches no other entry. -/
lemma checked (s : Server) (ip : Bytes) (id : String) :
    ∃ block, Checked s.now id (s.ipBlocker ip) block
        ⟨s.now, id, (s.checkIpBlocker ip id).1, Gate.clears s ip, Gate.refusesNew s ip id⟩ ∧
      (s.checkIpBlocker ip id).2 =
        { s with ipBlocker := Function.update s.ipBlocker ip (some block) } := by
  cases hold : s.ipBlocker ip with
  | none =>
    refine ⟨⟨0, s.now, [], s.now⟩, ?_, ?_⟩
    · simpa [Server.checkIpBlocker, Gate.clears, Gate.refusesNew, hold] using .first
    · simp [Server.checkIpBlocker, hold]
  | some old =>
    unfold Server.checkIpBlocker Gate.clears Gate.refusesNew
    simp only [hold, Option.any_some]
    by_cases hstop : elapsedSecs s.now old.since ≤ ipBlockDur ∧ old.count > 30
    · refine ⟨old, ?_, ?_⟩
      · simpa [Gate.counted, hstop] using .tooOften
      · rw [if_pos hstop, ← hold, Function.update_eq_self]
    obtain ⟨hcount, hquiet⟩ := count_of_counted hstop
    have hcounted : Gate.counted s old = true := by
      simpa [Gate.counted, or_iff_not_imp_left] using hstop
    simp only [if_neg hstop, hcounted, Bool.true_and]
    generalize (if elapsedSecs s.now old.since > ipBlockDur then 0 else old.count) + 1 = count
      at hcount hquiet ⊢
    by_cases hday : elapsedSecs s.now old.idsSince ≤ daySeconds
    · have hkept : ¬daySeconds < elapsedSecs s.now old.idsSince := not_lt.mpr hday
      by_cases hfull : old.ids.length > 300
      · refine ⟨{ old with count, since := s.now }, ?_, ?_⟩
        · have hchecked : Checked s.now id (some old) _ _ := .full hcount hquiet hfull
          simpa [hday, hkept, hfull] using hchecked
        · rw [if_pos ⟨hday, hfull⟩]
      · have hroom : ¬(elapsedSecs s.now old.idsSince ≤ daySeconds ∧ old.ids.length > 300) :=
          fun h => hfull h.2
        refine ⟨⟨count, s.now, if id ∈ old.ids then old.ids else id :: old.ids, s.now⟩, ?_, ?_⟩
        · simpa [hday, hkept, hfull] using .noted hcount hquiet (not_lt.mp hfull)
        · rw [if_neg hroom, if_neg hkept, ite_not]
    · have hlate : ¬(elapsedSecs s.now old.idsSince ≤ daySeconds ∧ old.ids.length > 300) :=
        fun h => hday h.1
      refine ⟨⟨count, s.now, if id ∈ old.ids then [] else [id], s.now⟩, ?_, ?_⟩
      · simpa [hday, not_le.mp hday] using .forgotten hcount hquiet
      · rw [if_neg hlate, if_pos (not_le.mp hday), ite_not]

/-! ### The count -/

/-- The calls accepted from `t` on. -/
def acceptedFrom (t : ℕ) (calls : List Call) : ℕ :=
  calls.countP fun c => c.accepted && t ≤ c.now

/-- The calls accepted in the minute from `t`. -/
def acceptedWithin (t : ℕ) (calls : List Call) : ℕ :=
  calls.countP fun c => c.accepted && t ≤ c.now && c.now ≤ t + 60000

variable {count count' since : ℕ} {calls : List Call} {c : Call} {b b' : IpBlock}

/-- The count falls at most one short of the calls accepted in the minute before the last one that
was counted. -/
structure Tallied (count : ℕ) (since : ℕ) (calls : List Call) : Prop where
  le : count ≤ 31
  last : ∀ c ∈ calls, c.accepted → c.now ≤ since
  burst : ∀ t, since ≤ t + 60000 → acceptedFrom t calls ≤ count + 1
  within : ∀ t, acceptedWithin t calls ≤ 32

lemma acceptedFrom_cons_le (t : ℕ) (c : Call) (calls : List Call) :
    acceptedFrom t (c :: calls) ≤ acceptedFrom t calls + 1 := by
  unfold acceptedFrom
  rw [List.countP_cons]
  split_ifs <;> omega

lemma acceptedWithin_le (t : ℕ) (calls : List Call) :
    acceptedWithin t calls ≤ acceptedFrom t calls :=
  List.countP_mono_left fun c _ h => by simp_all

/-- A refused call that leaves the count alone changes nothing. -/
lemma Tallied.refused (h : Tallied count since calls) (hc : c.accepted = false) :
    Tallied count since (c :: calls) where
  le := h.le
  last c' hc' hacc := by
    rcases List.mem_cons.mp hc' with rfl | hc'
    · rw [hc] at hacc
      cases hacc
    · exact h.last c' hc' hacc
  burst t ht := by
    simpa [acceptedFrom, hc] using h.burst t ht
  within t := by
    simpa [acceptedWithin, hc] using h.within t

lemma Tallied.first (c : Call) : Tallied 0 c.now [c] where
  le := Nat.zero_le _
  last c' hc' _ := by rw [List.mem_singleton.mp hc']
  burst _ _ := List.countP_le_length
  within _ := List.countP_le_length.trans (Nat.le_add_left 1 31)

lemma Tallied.counted (h : Tallied count since calls) (hnow : c.now = now) (hcount : count' ≤ 31)
    (hquiet : ipBlockDur < elapsedSecs now since ∨ count' = count + 1) (hclock : since ≤ now) :
    Tallied count' now (c :: calls) := by
  subst hnow
  have hburst : ∀ t, c.now ≤ t + 60000 → acceptedFrom t (c :: calls) ≤ count' + 1 := by
    intro t ht
    have hcons := acceptedFrom_cons_le t c calls
    rcases hquiet with hquiet | rfl
    · -- nothing accepted before the silence is left in the minute
      have hnone : acceptedFrom t calls = 0 := by
        unfold acceptedFrom
        rw [List.countP_eq_zero]
        intro c' hc' hin
        simp only [Bool.and_eq_true, decide_eq_true_eq] at hin
        have := h.last c' hc' hin.1
        unfold elapsedSecs ipBlockDur at hquiet
        omega
      omega
    · have := h.burst t (hclock.trans ht)
      omega
  refine ⟨hcount, ?_, hburst, ?_⟩
  · intro c' hc' hacc
    rcases List.mem_cons.mp hc' with rfl | hc'
    · exact le_rfl
    · exact (h.last c' hc' hacc).trans hclock
  · intro t
    by_cases hle : c.now ≤ t + 60000
    · have := hburst t hle
      have := acceptedWithin_le t (c :: calls)
      omega
    · simpa [acceptedWithin, hle] using h.within t

/-! ### The ids -/

/-- The id is that of an accepted call. -/
def Accepted (id : String) (calls : List Call) : Prop := ∃ c ∈ calls, c.accepted ∧ c.id = id

/-- At most one id accepted since the ids were forgotten is not among the ids of the entry, which
stay as they are once a new one was refused. -/
structure Remembered (ids : List String) (calls : List Call) : Prop where
  length : ids.length ≤ 301
  accepted : ∃ x, ∀ c ∈ sinceClear calls, c.accepted → c.id = x ∨ c.id ∈ ids
  noted : ∀ id ∈ ids, Accepted id (sinceClear calls)
  frozen : ∀ later c earlier, sinceClear calls = later ++ c :: earlier → c.overLimit →
    300 < ids.length ∧ (∀ id ∈ ids, Accepted id earlier) ∧
      ∀ c' ∈ later, c'.accepted → Accepted c'.id earlier

lemma sinceClear_cons_of_kept (h : c.cleared = false) :
    sinceClear (c :: calls) = c :: sinceClear calls := by
  simp [sinceClear, h]

lemma sinceClear_cons_of_cleared (h : c.cleared = true) : sinceClear (c :: calls) = [c] := by
  simp [sinceClear, h]

variable {ids : List String}

lemma Accepted.cons (h : Accepted id calls) (c : Call) : Accepted id (c :: calls) := by
  obtain ⟨c', hc', hacc⟩ := h
  exact ⟨c', List.mem_cons_of_mem c hc', hacc⟩

/-- A call that forgets no id. A new one is noted where there is room, and refused where there is
not. -/
lemma Remembered.kept (h : Remembered ids calls) (hclear : c.cleared = false)
    {ids' : List String} (hids : ids' = ids ∨ ids.length ≤ 300 ∧ c.accepted ∧ ids' = c.id :: ids)
    (hacc : c.accepted → c.id ∈ ids') (hover : c.overLimit → 300 < ids.length) :
    Remembered ids' (c :: calls) := by
  have hsub : ∀ id ∈ ids, id ∈ ids' := by
    rcases hids with rfl | ⟨-, -, rfl⟩
    · exact fun _ h => h
    · exact fun _ h => List.mem_cons_of_mem _ h
  -- where there are too many ids, none is noted
  have hfull : 300 < ids.length → ids' = ids := by
    intro hlen
    rcases hids with rfl | ⟨hroom, -⟩
    · rfl
    · omega
  refine ⟨?_, ?_, ?_, ?_⟩
  · rcases hids with rfl | ⟨hroom, -, rfl⟩
    · exact h.length
    · exact Nat.succ_le_succ hroom
  · obtain ⟨x, hx⟩ := h.accepted
    refine ⟨x, ?_⟩
    rw [sinceClear_cons_of_kept hclear]
    intro c' hc' hacc'
    rcases List.mem_cons.mp hc' with rfl | hc'
    · exact .inr (hacc hacc')
    · exact (hx c' hc' hacc').imp_right (hsub _)
  · rw [sinceClear_cons_of_kept hclear]
    intro id hid
    rcases hids with rfl | ⟨-, hc, rfl⟩
    · exact (h.noted id hid).cons c
    · rcases List.mem_cons.mp hid with rfl | hid
      · exact ⟨c, List.mem_cons_self, hc, rfl⟩
      · exact (h.noted id hid).cons c
  · rw [sinceClear_cons_of_kept hclear]
    intro later r earlier hsplit hr
    rcases List.cons_eq_append_iff.mp hsplit with ⟨rfl, hcons⟩ | ⟨later', rfl, hsplit'⟩
    · cases hcons
      have hlen := hover hr
      rw [hfull hlen]
      exact ⟨hlen, h.noted, by simp⟩
    · obtain ⟨hlen, hearlier, hlater⟩ := h.frozen later' r earlier hsplit' hr
      rw [hfull hlen] at hacc ⊢
      refine ⟨hlen, hearlier, ?_⟩
      intro c' hc' hacc'
      rcases List.mem_cons.mp hc' with rfl | hc'
      · exact hearlier _ (hacc hacc')
      · exact hlater c' hc' hacc'

lemma Remembered.restarted (hstart : sinceClear (c :: calls) = [c]) (hacc : c.accepted)
    (hover : c.overLimit = false) (hids : ids = [] ∨ ids = [c.id]) :
    Remembered ids (c :: calls) := by
  refine ⟨?_, ?_, ?_, ?_⟩
  · rcases hids with rfl | rfl <;> simp
  · refine ⟨c.id, ?_⟩
    rw [hstart]
    intro c' hc' _
    exact .inl (by rw [List.mem_singleton.mp hc'])
  · rw [hstart]
    intro id hid
    rcases hids with rfl | rfl
    · cases hid
    · exact ⟨c, List.mem_singleton_self c, hacc, (List.mem_singleton.mp hid).symm⟩
  · rw [hstart]
    intro later r earlier hsplit hr
    rcases List.cons_eq_append_iff.mp hsplit with ⟨rfl, hcons⟩ | ⟨later', rfl, hsplit'⟩
    · cases hcons
      rw [hover] at hr
      cases hr
    · simp at hsplit'

/-! ### Every sequence of calls -/

/-- What holds of an address: without an entry it has made no call. -/
structure Address (now : ℕ) (entry : Option IpBlock) (calls : List Call) : Prop where
  fresh : entry = none → calls = []
  clock : ∀ b, entry = some b → b.since ≤ now
  tallied : ∀ b, entry = some b → Tallied b.count.toNat b.since calls
  remembered : ∀ b, entry = some b → Remembered b.ids calls

lemma Address.checked {entry : Option IpBlock} (h : Address since entry calls) (hnow : since ≤ now)
    (hc : Checked now id entry b c) : Address now (some b) (c :: calls) := by
  have hclock : ∀ old, entry = some old → old.since ≤ now :=
    fun old hold => (h.clock old hold).trans hnow
  refine ⟨nofun, ?_, ?_, ?_⟩ <;> rintro _ ⟨⟩
  · cases hc with
    | tooOften => exact hclock _ rfl
    | first | forgotten | full | noted => exact le_rfl
  · cases hc with
    | first =>
      rw [h.fresh rfl]
      exact Tallied.first ⟨now, id, true, false, false⟩
    | tooOften => exact (h.tallied _ rfl).refused rfl
    | forgotten hcount hquiet | full hcount hquiet | noted hcount hquiet =>
      exact (h.tallied _ rfl).counted rfl hcount hquiet (hclock _ rfl)
  · cases hc with
    | first =>
      rw [h.fresh rfl]
      exact .restarted rfl rfl rfl (.inl rfl)
    | tooOften => exact (h.remembered _ rfl).kept rfl (.inl rfl) nofun nofun
    | forgotten =>
      apply Remembered.restarted (sinceClear_cons_of_cleared rfl) rfl rfl
      split_ifs
      · exact .inl rfl
      · exact .inr rfl
    | full _ _ hfull =>
      exact (h.remembered _ rfl).kept rfl (.inl rfl) (by simp) (fun _ => hfull)
    | noted _ _ hroom =>
      apply (h.remembered _ rfl).kept rfl ?_ ?_ (by simp)
      · split_ifs
        · exact .inl rfl
        · exact .inr ⟨hroom, rfl, rfl⟩
      · intro _
        split_ifs with hid
        · exact hid
        · exact List.mem_cons_self

lemma step_address (h : ∀ ip, Address g.server.now (g.server.ipBlocker ip) (g.calls ip))
    {a : Bytes × String × ℕ} (hstep : ipGate.step g a = some g') :
    ∀ ip, Address g'.server.now (g'.server.ipBlocker ip) (g'.calls ip) := by
  obtain ⟨ip, id, now⟩ := a
  simp only [ipGate, Gate.step, Option.ite_none_right_eq_some, Option.some.injEq] at hstep
  obtain ⟨hnow, rfl⟩ := hstep
  obtain ⟨block, hc, hserver⟩ := checked { g.server with now } ip id
  intro ip'
  rw [hserver]
  dsimp only at hc ⊢
  rcases eq_or_ne ip' ip with rfl | hne
  · rw [Function.update_self, Function.update_self]
    exact (h ip').checked hnow hc
  · rw [Function.update_of_ne hne, Function.update_of_ne hne]
    exact ⟨(h ip').fresh, fun b hb => ((h ip').clock b hb).trans hnow, (h ip').tallied,
      (h ip').remembered⟩

lemma reachable_address (hg : ipGate.Reachable g) (ip : Bytes) :
    Address g.server.now (g.server.ipBlocker ip) (g.calls ip) := by
  refine hg.invariant
    (P := fun g => ∀ ip, Address g.server.now (g.server.ipBlocker ip) (g.calls ip))
    ?_ (fun _ _ _ _ h hstep => step_address h hstep) ip
  rintro g ⟨hblocker, hcalls⟩ ip
  rw [hblocker, hcalls]
  exact ⟨fun _ => rfl, nofun, nofun, nofun⟩

/-- The calls up to any of an address are all its calls in some state before. -/
lemma reachable_of_calls (hg : ipGate.Reachable g) (h : g.calls ip = later ++ earlier) :
    ∃ g₀, ipGate.Reachable g₀ ∧ g₀.calls ip = earlier := by
  induction hg generalizing later with
  | @init g hinit =>
    rw [hinit.2] at h
    have : earlier = [] := (List.append_eq_nil_iff.mp h.symm).2
    exact ⟨g, .init hinit, by rw [hinit.2, this]⟩
  | @step g g' a hg hstep ih =>
    cases later with
    | nil => exact ⟨g', hg.step hstep, h⟩
    | cons c later =>
      obtain ⟨ip', id, now⟩ := a
      simp only [ipGate, Gate.step, Option.ite_none_right_eq_some, Option.some.injEq] at hstep
      obtain ⟨hnow, rfl⟩ := hstep
      dsimp only at h
      rcases eq_or_ne ip ip' with rfl | hne
      · rw [Function.update_self] at h
        exact ih (List.cons.inj h).2
      · rw [Function.update_of_ne hne] at h
        exact ih h

/-- The latest call is in the calls since ids were forgotten, and the rest are of those before. -/
lemma sinceClear_cons (c : Call) (calls : List Call) :
    ∃ rest ⊆ calls, sinceClear (c :: calls) = c :: rest := by
  induction calls generalizing c with
  | nil =>
    refine ⟨[], List.nil_subset _, ?_⟩
    cases hc : c.cleared <;> simp [sinceClear, hc]
  | cons c' calls ih =>
    cases hc : c.cleared with
    | true => exact ⟨[], List.nil_subset _, sinceClear_cons_of_cleared hc⟩
    | false =>
      obtain ⟨rest, hrest, heq⟩ := ih c'
      exact ⟨c' :: rest, List.cons_subset_cons c' hrest, by rw [sinceClear_cons_of_kept hc, heq]⟩

lemma sinceClear_append (h : ∀ c ∈ later, c.cleared = false) :
    sinceClear (later ++ earlier) = later ++ sinceClear earlier := by
  induction later with
  | nil => rfl
  | cons c later ih =>
    rw [List.cons_append, sinceClear_cons_of_kept (h c List.mem_cons_self),
      ih fun c' hc' => h c' (List.mem_cons_of_mem c hc'), List.cons_append]

/-- A stretch of calls in which only the oldest forgets ids lies in the calls since then. -/
lemma subset_sinceClear {period : List Call} (h : ∀ c ∈ period.dropLast, c.cleared = false) :
    period ⊆ sinceClear (period ++ earlier) := by
  rcases List.eq_nil_or_concat period with rfl | ⟨front, c, rfl⟩
  · exact List.nil_subset _
  · rw [List.concat_eq_append, List.dropLast_concat] at h
    obtain ⟨rest, -, heq⟩ := sinceClear_cons c earlier
    rw [List.concat_eq_append, List.append_assoc, List.singleton_append, sinceClear_append h, heq]
    intro c' hc'
    rcases List.mem_append.mp hc' with hc' | hc'
    · exact List.mem_append_left _ hc'
    · rw [List.mem_singleton.mp hc']
      exact List.mem_append_right _ List.mem_cons_self

/-- For every address: in any minute at most 32 calls are accepted; from one time its ids are
forgotten to the next at most 302 different ids are; and once a new id was refused because there
are too many, only ids accepted before are accepted until the ids are forgotten. The calls are the
latest first. -/
theorem ip_blocker_bounds (hg : ipGate.Reachable g) (ip : Bytes) :
    (∀ t, ((g.calls ip).filter fun c =>
      c.accepted && t ≤ c.now && c.now ≤ t + 60000).length ≤ 32) ∧
    (∀ later period earlier, g.calls ip = later ++ period ++ earlier →
      (∀ c ∈ period.dropLast, c.cleared = false) →
      (((period.filter (·.accepted)).map (·.id)).dedup).length ≤ 302) ∧
    ∀ later c between refused earlier,
      g.calls ip = later ++ c :: between ++ refused :: earlier → refused.overLimit →
      (∀ c' ∈ c :: between, c'.cleared = false) → c.accepted →
      ∃ c' ∈ earlier, c'.accepted ∧ c'.id = c.id := by
  refine ⟨?_, ?_, ?_⟩
  · intro t
    cases hentry : g.server.ipBlocker ip with
    | none => simp [(reachable_address hg ip).fresh hentry]
    | some b =>
      rw [← List.countP_eq_length_filter]
      exact ((reachable_address hg ip).tallied b hentry).within t
  · intro later period earlier hsplit hkept
    rw [List.append_assoc] at hsplit
    obtain ⟨g₀, hg₀, hcalls⟩ := reachable_of_calls hg hsplit
    cases hentry : g₀.server.ipBlocker ip with
    | none =>
      have := (reachable_address hg₀ ip).fresh hentry
      rw [hcalls] at this
      simp [(List.append_eq_nil_iff.mp this).1]
    | some b =>
      have hids := (reachable_address hg₀ ip).remembered b hentry
      obtain ⟨x, hx⟩ := hids.accepted
      have hsub : ((period.filter (·.accepted)).map (·.id)).dedup ⊆ x :: b.ids := by
        intro id hid
        obtain ⟨c, hc, rfl⟩ := List.mem_map.mp (List.mem_dedup.mp hid)
        obtain ⟨hc, hacc⟩ := List.mem_filter.mp hc
        have hin : c ∈ sinceClear (g₀.calls ip) := hcalls ▸ subset_sinceClear hkept hc
        exact List.mem_cons.mpr (hx c hin hacc)
      calc (((period.filter (·.accepted)).map (·.id)).dedup).length
          ≤ (x :: b.ids).length := ((List.nodup_dedup _).subperm hsub).length_le
        _ ≤ 302 := Nat.succ_le_succ hids.length
  · intro later c between refused earlier hsplit hover hkept hacc
    rw [List.append_assoc] at hsplit
    obtain ⟨g₀, hg₀, hcalls⟩ := reachable_of_calls hg hsplit
    cases hentry : g₀.server.ipBlocker ip with
    | none =>
      have := (reachable_address hg₀ ip).fresh hentry
      rw [hcalls] at this
      simp at this
    | some b =>
      have hfrozen := ((reachable_address hg₀ ip).remembered b hentry).frozen
      obtain ⟨rest, hrest, heq⟩ := sinceClear_cons refused earlier
      rw [hcalls, sinceClear_append hkept, heq] at hfrozen
      obtain ⟨-, -, hlater⟩ := hfrozen (c :: between) refused rest rfl hover
      obtain ⟨c', hc', hsame⟩ := hlater c List.mem_cons_self hacc
      exact ⟨c', hrest hc', hsame⟩

/-- A server that has just started. -/
def quiet : Gate := ⟨.fresh, fun _ => []⟩

/-- A burst of 33 requests: the first 32 are accepted. -/
theorem ip_blocker_bounds_burst : ∃ g, ipGate.run quiet
      (List.replicate 33 ([10], "123456789", 0)) = some g ∧
    (g.calls [10]).countP (·.accepted) = 32 ∧ ((g.calls [10]).filter fun c =>
      c.accepted && 0 ≤ c.now && c.now ≤ 0 + 60000).length ≤ 32 := by
  have hquiet : ipGate.init quiet := ⟨rfl, rfl⟩
  exact LTS.exists_run (by decide) fun _ hg _ =>
    (ip_blocker_bounds ((LTS.Reachable.init hquiet).run hg) [10]).1 0

end RustDesk.Rendezvous.Blocker
