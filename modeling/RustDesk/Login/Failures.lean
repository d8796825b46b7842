import RustDesk.Lib.LittleEndian
import RustDesk.Lib.Slots
import RustDesk.Login.OsBackoff
import RustDesk.Net.Addr

/-!
# Counting wrong passwords

`check_failure` reads the count of the peer's address and refuses the attempt when it is too high,
`update_failure` counts the attempt once the password was compared. Each takes the lock of the map
for itself, so the connections of one address, which run on several threads, come in between.
-/

namespace RustDesk.Login

/-- The minute of the last failure, the failures in that minute, and all of them. -/
structure Failure where
  time : ℤ := 0
  inMinute : ℤ := 0
  total : ℤ := 0
  deriving DecidableEq

/-- A key of the map stands for its text: an address, or a network with the length of its mask. -/
inductive FailureKey where
  | ip (ip : IpAddr)
  | network (bits : ℕ) (length : ℕ)
  deriving DecidableEq

/-- `LOGIN_FAILURES` and the counter of logins with credentials of the operating system. -/
structure LoginFailures where
  maps : Fin 3 → FailureKey → Option Failure := fun _ _ => none
  os : OsCredentialFailureState := {}

/-- `as i32` -/
def asI32 (n : ℤ) : ℤ := (n + 2 ^ 31) % 2 ^ 32 - 2 ^ 31

/-- The minute a time of `get_time` falls in. -/
def minute (nowMs : ℤ) : ℤ := asI32 (nowMs.tdiv 60000)

def maskU128 (addr : ℕ) (length : ℕ) : ℕ :=
  if length = 0 ∨ 128 < length then 0 else addr / 2 ^ (128 - length) * 2 ^ (128 - length)

/-- The networks of an IPv6 address. -/
def getIpv6Prefixes : IpAddr → Option (FailureKey × FailureKey × FailureKey)
  | .v4 _ => none
  | .v6 ip =>
    let asU128 := leValue ip.octets.toList.reverse
    some (.network (maskU128 asU128 64) 64, .network (maskU128 asU128 56) 56,
      .network (maskU128 asU128 48) 48)

def bumpFailureEntry (cur : Failure) (time : ℤ) : Failure :=
  if cur.time = time then { cur with inMinute := cur.inMinute + 1, total := cur.total + 1 }
  else { time, inMinute := 1, total := cur.total + 1 }

namespace LoginFailures

/-- The entry of a key, or the one a key without an entry counts as. -/
def entry (fs : LoginFailures) (i : Fin 3) (key : FailureKey) : Failure := (fs.maps i key).getD {}

def insert (fs : LoginFailures) (i : Fin 3) (key : FailureKey) (f : Failure) : LoginFailures :=
  { fs with maps := Function.update fs.maps i (Function.update (fs.maps i) key (some f)) }

def remove (fs : LoginFailures) (i : Fin 3) (key : FailureKey) : LoginFailures :=
  { fs with maps := Function.update fs.maps i (Function.update (fs.maps i) key none) }

/-- One more failure under the key. -/
def bump (fs : LoginFailures) (i : Fin 3) (time : ℤ) (key : FailureKey) : LoginFailures :=
  fs.insert i key (bumpFailureEntry (fs.entry i key) time)

/-- The keys of an address, in the order in which they are written. -/
def keys (ip : IpAddr) : List FailureKey :=
  match getIpv6Prefixes ip with
  | some (p64, p56, p48) => [p64, p56, p48, .ip ip]
  | none => [.ip ip]

def updateFailureWithScope (fs : LoginFailures) (ip : IpAddr) (failure : Failure) (time : ℤ)
    (remove : Bool) (i : Fin 3) (scope : FailureScope) (nowMs : ℤ) : LoginFailures :=
  if scope = .terminalOsLogin then
    if !remove then
      { fs with os := OsCredential.recordOsCredentialFailure scope nowMs fs.os }
    else fs
  else if remove then
    if failure.time ≠ 0 then (keys ip).foldl (fun fs key => fs.remove i key) fs else fs
  else (keys ip).foldl (fun fs key => fs.bump i time key) fs

end LoginFailures

/-- What `check_failure` returns, and what it sends and reports where it refuses. -/
structure FailureCheck where
  failure : Failure
  time : ℤ
  res : Bool
  loginError : Option String := none
  audit : Option AlarmAuditType := none
  deriving DecidableEq

namespace LoginFailures

def checkFailureIpv6Prefix (fs : LoginFailures) (i : Fin 3) (time : ℤ) (key : FailureKey)
    (prefixNum : ℕ) (thresh : ℤ) : Option FailureCheck :=
  let failurePrefix := fs.entry i key
  if failurePrefix.total > thresh then
    some ⟨failurePrefix, time, false,
      some ("Too many wrong attempts for IPv6 prefix /" ++ toString prefixNum),
      some .exceedIPv6PrefixAttempts⟩
  else none

/-- The check of the address itself. -/
def checkFailureIp (fs : LoginFailures) (ip : IpAddr) (i : Fin 3) (time : ℤ) : FailureCheck :=
  let failure := fs.entry i (.ip ip)
  if failure.total > 30 then
    ⟨failure, time, false, some "Too many wrong attempts", some .exceedThirtyAttempts⟩
  else if time = failure.time ∧ failure.inMinute > 6 then
    ⟨failure, time, false, some "Please try 1 minute later", some .sixAttemptsWithinOneMinute⟩
  else ⟨failure, time, true, none, none⟩

def checkFailureWithScope (fs : LoginFailures) (ip : IpAddr) (i : Fin 3) (scope : FailureScope)
    (nowMs : ℤ) : FailureCheck × LoginFailures :=
  let time := minute nowMs
  if scope = .terminalOsLogin then
    let (decision, os) := OsCredential.evaluateOsCredentialPolicy scope nowMs fs.os
    (⟨{}, time, decision.allowed, decision.loginError, decision.audit⟩, { fs with os })
  else
    let blocked := (getIpv6Prefixes ip).bind fun (p64, p56, p48) =>
      (fs.checkFailureIpv6Prefix i time p64 64 60).or
        ((fs.checkFailureIpv6Prefix i time p56 56 80).or
          (fs.checkFailureIpv6Prefix i time p48 48 100))
    (blocked.getD (fs.checkFailureIp ip i time), fs)

end LoginFailures

/-! ### Connections that try passwords -/

/-- Where a connection is with its attempt. -/
inductive Guess where
  | idle
  | checked (failure : Failure) (time : ℤ)
  | compared (failure : Failure) (time : ℤ) (right : Bool)
  deriving DecidableEq

structure Guesser where
  ip : IpAddr
  guess : Guess := .idle
  deriving DecidableEq

/-- The connections, with the passwords compared so far: the address each came from and the minute
of its check. -/
structure Guessers where
  failures : LoginFailures := {}
  conns : List Guesser := []
  compared : List (IpAddr × ℤ) := []

inductive GuessAct where
  | opened (ip : IpAddr)
  | check (k : ℕ) (nowMs : ℤ)
  | compare (k : ℕ) (right : Bool)
  | update (k : ℕ) (nowMs : ℤ)
  deriving DecidableEq

namespace Guessers

def setGuess (s : Guessers) (k : ℕ) (c : Guesser) (guess : Guess) : Guessers :=
  { s with conns := s.conns.set k { c with guess } }

def step (s : Guessers) : GuessAct → Option Guessers
  | .opened ip => some { s with conns := s.conns ++ [{ ip }] }
  | .check k nowMs =>
    match s.conns[k]? with
    | some ⟨ip, .idle⟩ =>
      let (check, failures) := s.failures.checkFailureWithScope ip 0 .default nowMs
      let s := { s with failures }
      some (if check.res then s.setGuess k ⟨ip, .idle⟩ (.checked check.failure check.time) else s)
    | _ => none
  | .compare k right =>
    match s.conns[k]? with
    | some ⟨ip, .checked failure time⟩ =>
      let s := { s with compared := (ip, time) :: s.compared }
      some (s.setGuess k ⟨ip, .checked failure time⟩ (.compared failure time right))
    | _ => none
  | .update k nowMs =>
    match s.conns[k]? with
    | some ⟨ip, .compared failure time right⟩ =>
      let failures := s.failures.updateFailureWithScope ip failure time right 0 .default nowMs
      some ({ s with failures }.setGuess k ⟨ip, .compared failure time right⟩ .idle)
    | _ => none

end Guessers

def guessers : LTS Guessers GuessAct where
  init s := s = {}
  step := Guessers.step

/-- Nothing is said of other addresses; the attempts of `ip` are made in the minute `m` and with
wrong passwords. -/
def wrongWithin (ip : IpAddr) (m : ℤ) (s : Guessers) : GuessAct → Bool
  | .check k nowMs => (s.conns[k]?).all fun c => c.ip ≠ ip || minute nowMs = m
  | .compare k right => (s.conns[k]?).all fun c => c.ip ≠ ip || !right
  | .opened _ | .update _ _ => true

/-- No attempt of `ip` is checked while another is between its check and its update. -/
def oneAtATime (ip : IpAddr) (s : Guessers) : GuessAct → Bool
  | .check k _ => (s.conns[k]?).all fun c =>
      c.ip ≠ ip || s.conns.all fun c' => c'.ip ≠ ip || c'.guess = .idle
  | .opened _ | .compare _ _ | .update _ _ => true

variable {fs : LoginFailures} {i : Fin 3} {key key' : FailureKey} {ip ip' : IpAddr} {f : Failure}
  {m time now : ℤ} {n k : ℕ} {s s' s₀ : Guessers} {a : GuessAct}

/-! ### The entries -/

namespace LoginFailures

variable {op : LoginFailures → FailureKey → LoginFailures}

@[simp] lemma entry_insert_self : (fs.insert i key f).entry i key = f := by
  simp [entry, insert]

lemma entry_insert_of_ne (h : key ≠ key') : (fs.insert i key' f).entry i key = fs.entry i key := by
  simp [entry, insert, h]

@[simp] lemma entry_bump_self :
    (fs.bump i time key).entry i key = bumpFailureEntry (fs.entry i key) time :=
  entry_insert_self

lemma entry_bump_of_ne (h : key ≠ key') : (fs.bump i time key').entry i key = fs.entry i key :=
  entry_insert_of_ne h

lemma entry_remove_of_ne (h : key ≠ key') : (fs.remove i key').entry i key = fs.entry i key := by
  simp [entry, remove, h]

lemma entry_foldl_of_ne {keys : List FailureKey}
    (hop : ∀ fs key', key ≠ key' → (op fs key').entry i key = fs.entry i key)
    (hkeys : ∀ key' ∈ keys, key ≠ key') : (keys.foldl op fs).entry i key = fs.entry i key := by
  induction keys generalizing fs with
  | nil => rfl
  | cons key' keys ih =>
    rw [List.foldl_cons, ih fun key'' h => hkeys key'' (List.mem_cons_of_mem _ h)]
    exact hop fs key' (hkeys key' List.mem_cons_self)

/-- The address comes last among its keys; the others are networks. -/
lemma keys_eq (ip : IpAddr) :
    ∃ networks, keys ip = networks ++ [.ip ip] ∧ ∀ key ∈ networks, ∀ ip', .ip ip' ≠ key := by
  cases ip with
  | v4 ip => exact ⟨[], rfl, nofun⟩
  | v6 ip => exact ⟨[_, _, _], rfl, by simp⟩

lemma entry_update_of_ne (h : ip ≠ ip') (remove : Bool) :
    (fs.updateFailureWithScope ip' f time remove i .default now).entry i (.ip ip)
      = fs.entry i (.ip ip) := by
  have hkeys : ∀ key ∈ keys ip', FailureKey.ip ip ≠ key := by
    obtain ⟨networks, heq, hnetworks⟩ := keys_eq ip'
    rw [heq]
    intro key hkey
    rcases List.mem_append.mp hkey with hkey | hkey
    · exact hnetworks key hkey ip
    · rw [List.mem_singleton.mp hkey]
      exact fun hip => h (FailureKey.ip.inj hip)
  unfold updateFailureWithScope
  rw [if_neg (by decide)]
  split_ifs
  · exact entry_foldl_of_ne (fun _ _ => entry_remove_of_ne) hkeys
  · rfl
  · exact entry_foldl_of_ne (fun _ _ => entry_bump_of_ne) hkeys

lemma entry_update_wrong :
    (fs.updateFailureWithScope ip f time false i .default now).entry i (.ip ip)
      = bumpFailureEntry (fs.entry i (.ip ip)) time := by
  obtain ⟨networks, heq, hnetworks⟩ := keys_eq ip
  unfold updateFailureWithScope
  rw [if_neg (by decide), if_neg (by decide), heq, List.foldl_append, List.foldl_cons,
    List.foldl_nil, entry_bump_self]
  rw [entry_foldl_of_ne (fun _ _ => entry_bump_of_ne) fun key hkey => hnetworks key hkey ip]

lemma res_of_checkFailureIpv6Prefix {prefixNum : ℕ} {thresh : ℤ} {c : FailureCheck}
    (h : fs.checkFailureIpv6Prefix i time key prefixNum thresh = some c) : c.res = false := by
  unfold checkFailureIpv6Prefix at h
  dsimp only at h
  split_ifs at h
  cases h
  rfl

/-- What a check that lets an attempt through has found, and that it writes nothing. -/
lemma of_check_res (h : (fs.checkFailureWithScope ip i .default now).1.res) :
    fs.checkFailureWithScope ip i .default now
        = (⟨fs.entry i (.ip ip), minute now, true, none, none⟩, fs) ∧
      (minute now = (fs.entry i (.ip ip)).time → (fs.entry i (.ip ip)).inMinute ≤ 6) := by
  unfold checkFailureWithScope at h ⊢
  rw [if_neg (by decide)] at h ⊢
  dsimp only at h ⊢
  have hblocked : ∀ c, (getIpv6Prefixes ip).bind (fun (p64, p56, p48) =>
      (fs.checkFailureIpv6Prefix i (minute now) p64 64 60).or
        ((fs.checkFailureIpv6Prefix i (minute now) p56 56 80).or
          (fs.checkFailureIpv6Prefix i (minute now) p48 48 100))) = some c → c.res = false := by
    intro c hc
    obtain ⟨⟨p64, p56, p48⟩, -, hc⟩ := Option.bind_eq_some_iff.mp hc
    rcases Option.or_eq_some_iff.mp hc with hc | ⟨-, hc⟩
    · exact res_of_checkFailureIpv6Prefix hc
    · rcases Option.or_eq_some_iff.mp hc with hc | ⟨-, hc⟩
      · exact res_of_checkFailureIpv6Prefix hc
      · exact res_of_checkFailureIpv6Prefix hc
  generalize (getIpv6Prefixes ip).bind _ = blocked at h hblocked ⊢
  cases blocked with
  | some c =>
    rw [Option.getD_some, hblocked c rfl] at h
    cases h
  | none =>
    rw [Option.getD_none] at h ⊢
    unfold checkFailureIp at h ⊢
    dsimp only at h ⊢
    split_ifs at h ⊢ with htotal hminute
    exact ⟨rfl, fun htime => not_lt.mp fun hmany => hminute ⟨htime, hmany⟩⟩

/-- No count is negative. -/
def Nonneg (fs : LoginFailures) : Prop := ∀ key, 0 ≤ (fs.entry 0 key).inMinute

variable (h : fs.Nonneg)

include h

lemma Nonneg.insert (hf : 0 ≤ f.inMinute) (key : FailureKey) : (fs.insert 0 key f).Nonneg := by
  intro key'
  rcases eq_or_ne key' key with rfl | hne
  · rwa [entry_insert_self]
  · rw [entry_insert_of_ne hne]
    exact h key'

lemma Nonneg.bump (time : ℤ) (key : FailureKey) : (fs.bump 0 time key).Nonneg := by
  apply h.insert
  have := h key
  unfold bumpFailureEntry
  split_ifs <;> dsimp only <;> omega

lemma Nonneg.remove (key : FailureKey) : (fs.remove 0 key).Nonneg := by
  intro key'
  rcases eq_or_ne key' key with rfl | hne
  · simp [entry, LoginFailures.remove]
  · rw [entry_remove_of_ne hne]
    exact h key'

lemma Nonneg.foldl (hop : ∀ fs : LoginFailures, fs.Nonneg → ∀ key, (op fs key).Nonneg)
    (keys : List FailureKey) : (keys.foldl op fs).Nonneg := by
  induction keys generalizing fs with
  | nil => exact h
  | cons key keys ih => exact ih (hop fs h key)

lemma Nonneg.update (ip : IpAddr) (f : Failure) (time : ℤ) (remove : Bool)
    (now : ℤ) : (fs.updateFailureWithScope ip f time remove 0 .default now).Nonneg := by
  unfold updateFailureWithScope
  rw [if_neg (by decide)]
  split_ifs
  · exact h.foldl (fun _ h key => h.remove key) _
  · exact h
  · exact h.foldl (fun _ h key => h.bump time key) _

end LoginFailures

/-! ### One step -/

namespace Guessers

variable {c : Guesser} {busy : ℕ → Guess → Prop} {g guess : Guess} {right : Bool} {base : ℕ}

/-- Connection `k` of `ip` is between its check and its update. -/
def Busy (s : Guessers) (ip : IpAddr) (k : ℕ) (guess : Guess) : Prop :=
  guess ≠ .idle ∧ s.conns[k]? = some ⟨ip, guess⟩

/-- What a step does. -/
inductive Steps (s : Guessers) : GuessAct → Guessers → Prop where
  | opened (ip : IpAddr) : Steps s (.opened ip) { s with conns := s.conns ++ [{ ip }] }
  | refused {k : ℕ} {now : ℤ} {ip : IpAddr} (hk : s.conns[k]? = some ⟨ip, .idle⟩) :
    Steps s (.check k now) s
  | passed {k : ℕ} {now : ℤ} {ip : IpAddr} (hk : s.conns[k]? = some ⟨ip, .idle⟩)
    (hminute : minute now = (s.failures.entry 0 (.ip ip)).time →
      (s.failures.entry 0 (.ip ip)).inMinute ≤ 6) :
    Steps s (.check k now) (s.setGuess k ⟨ip, .idle⟩
      (.checked (s.failures.entry 0 (.ip ip)) (minute now)))
  | compared {k : ℕ} {right : Bool} {ip : IpAddr} {failure : Failure} {time : ℤ}
    (hk : s.conns[k]? = some ⟨ip, .checked failure time⟩) :
    Steps s (.compare k right) ({ s with compared := (ip, time) :: s.compared }.setGuess k
      ⟨ip, .checked failure time⟩ (.compared failure time right))
  | updated {k : ℕ} {now : ℤ} {right : Bool} {ip : IpAddr} {failure : Failure} {time : ℤ}
    {failures : LoginFailures} (hk : s.conns[k]? = some ⟨ip, .compared failure time right⟩)
    (hfailures : failures
      = s.failures.updateFailureWithScope ip failure time right 0 .default now) :
    Steps s (.update k now)
      ({ s with failures }.setGuess k ⟨ip, .compared failure time right⟩ .idle)

lemma steps (h : guessers.step s a = some s') : Steps s a s' := by
  change Guessers.step s a = some s' at h
  cases a <;> simp only [Guessers.step] at h
  case opened ip =>
    cases h
    exact .opened ip
  all_goals split at h <;> cases h
  · next ip hk =>
    cases hres : (s.failures.checkFailureWithScope ip 0 .default _).1.res with
    | false => exact .refused hk
    | true =>
      obtain ⟨heq, hminute⟩ := LoginFailures.of_check_res hres
      rw [heq]
      exact .passed hk hminute
  · exact .compared ‹_›
  · exact .updated ‹_› rfl

lemma busy_setGuess (hk : s.conns[k]? = some c) (guess : Guess) (j : ℕ) (g : Guess) :
    (s.setGuess k c guess).Busy c.ip j g ↔
      if j = k then g = guess ∧ guess ≠ .idle else s.Busy c.ip j g := by
  unfold Busy setGuess
  split_ifs with hj
  · subst hj
    rw [Slots.get_set_self hk]
    constructor
    · rintro ⟨hne, heq⟩
      cases heq
      exact ⟨rfl, hne⟩
    · rintro ⟨rfl, hne⟩
      exact ⟨hne, rfl⟩
  · rw [Slots.get_set_of_ne hj]

lemma busy_setGuess_of_ne (hk : s.conns[k]? = some c) (hne : c.ip ≠ ip) (guess : Guess) :
    (s.setGuess k c guess).Busy ip = s.Busy ip := by
  funext j g
  unfold Busy setGuess
  rcases eq_or_ne j k with rfl | hj
  · rw [Slots.get_set_self hk, hk]
    apply propext
    constructor <;>
    · rintro ⟨-, heq⟩
      cases heq
      exact absurd rfl hne
  · rw [Slots.get_set_of_ne hj]

lemma busy_opened (ip' : IpAddr) :
    ({ s with conns := s.conns ++ [{ ip := ip' }] } : Guessers).Busy ip = s.Busy ip := by
  funext j g
  unfold Busy
  apply propext
  constructor
  · rintro ⟨hne, heq⟩
    rcases Slots.concat_cases heq with hb | heq
    · cases hb
      exact absurd rfl hne
    · exact ⟨hne, heq⟩
  · rintro ⟨hne, heq⟩
    exact ⟨hne, Slots.get_concat heq _⟩

/-! ### Attempts one at a time -/

/-- At least `n` failures of the minute are in the entry. -/
def Counted (m : ℤ) (n : ℕ) (f : Failure) : Prop := n = 0 ∨ f.time = m ∧ (n : ℤ) ≤ f.inMinute

lemma Counted.bump (h : Counted m n f) (hf : 0 ≤ f.inMinute) :
    Counted m (n + 1) (bumpFailureEntry f m) := by
  unfold bumpFailureEntry
  split_ifs with htime
  · refine .inr ⟨htime, ?_⟩
    rcases h with rfl | ⟨-, hle⟩ <;> push_cast <;> omega
  · rcases h with rfl | ⟨heq, -⟩
    · exact .inr ⟨rfl, by simp⟩
    · exact absurd heq htime

/-- Where the attempts of an address are, `n` passwords of the minute having been compared: at most
one connection is busy, and its attempt is the only one that is not in the entry. -/
inductive Guessing (busy : ℕ → Guess → Prop) (m : ℤ) (entry : Failure) : ℕ → Prop where
  | idle {n : ℕ} (hidle : ∀ k g, ¬busy k g) (hcounted : Counted m n entry) (hn : n ≤ 7) :
    Guessing busy m entry n
  | checked {n k : ℕ} {failure : Failure}
    (hbusy : ∀ j g, busy j g ↔ j = k ∧ g = .checked failure m)
    (hcounted : Counted m n entry) (hn : n ≤ 6) : Guessing busy m entry n
  | compared {n k : ℕ} {failure : Failure}
    (hbusy : ∀ j g, busy j g ↔ j = k ∧ g = .compared failure m false)
    (hcounted : Counted m n entry) (hn : n ≤ 6) : Guessing busy m entry (n + 1)

lemma Guessing.le (h : Guessing busy m f n) : n ≤ 7 := by
  cases h with
  | idle _ _ hn => exact hn
  | checked _ _ hn => exact hn.trans (by decide)
  | compared _ _ hn => exact Nat.succ_le_succ hn

lemma Guessing.of_busy (h : Guessing busy m f n) (hb : busy k g) :
    (∀ j g', busy j g' ↔ j = k ∧ g' = g) ∧
      ((∃ failure, g = .checked failure m ∧ Counted m n f ∧ n ≤ 6) ∨
        ∃ failure n', g = .compared failure m false ∧ n = n' + 1 ∧ Counted m n' f ∧ n' ≤ 6) := by
  cases h with
  | idle hidle => exact absurd hb (hidle k g)
  | checked hbusy hcounted hn =>
    obtain ⟨rfl, rfl⟩ := (hbusy k g).mp hb
    exact ⟨hbusy, .inl ⟨_, rfl, hcounted, hn⟩⟩
  | compared hbusy hcounted hn =>
    obtain ⟨rfl, rfl⟩ := (hbusy k g).mp hb
    exact ⟨hbusy, .inr ⟨_, _, rfl, rfl, hcounted, hn⟩⟩

section

variable (hk : s.conns[k]? = some ⟨ip, guess⟩)

include hk

lemma minute_of_wrongWithin (h : wrongWithin ip m s (.check k now)) : minute now = m := by
  simpa [wrongWithin, hk] using h

lemma right_of_wrongWithin (h : wrongWithin ip m s (.compare k right)) : right = false := by
  simpa [wrongWithin, hk] using h

lemma not_busy_of_oneAtATime (h : oneAtATime ip s (.check k now))
    (j : ℕ) (g : Guess) : ¬s.Busy ip j g := by
  rintro ⟨hne, hj⟩
  simp only [oneAtATime, hk, Option.all_some, ne_eq, not_true_eq_false, decide_false,
    Bool.false_or, List.all_eq_true] at h
  have := h _ (List.mem_of_getElem? hj)
  simp [hne] at this

end

/-- The attempts of `ip` in a state that a run has reached, which started with `base` of them. -/
structure Limited (ip : IpAddr) (m : ℤ) (base : ℕ) (s : Guessers) : Prop where
  nonneg : s.failures.Nonneg
  guessing : ∃ n, Guessing (s.Busy ip) m (s.failures.entry 0 (.ip ip)) n ∧
    s.compared.count (ip, m) = base + n

/-- An attempt that is let through is at most the seventh. -/
lemma Limited.passed (h : Limited ip m base s) (hk : s.conns[k]? = some ⟨ip, .idle⟩)
    (hidle : ∀ j g, ¬s.Busy ip j g)
    (hminute : m = (s.failures.entry 0 (.ip ip)).time →
      (s.failures.entry 0 (.ip ip)).inMinute ≤ 6) (f : Failure) :
    Limited ip m base (s.setGuess k ⟨ip, .idle⟩ (.checked f m)) := by
  obtain ⟨n, hg, hcount⟩ := h.guessing
  refine ⟨h.nonneg, n, ?_, hcount⟩
  cases hg with
  | checked hbusy | compared hbusy => exact absurd ((hbusy _ _).mpr ⟨rfl, rfl⟩) (hidle _ _)
  | idle _ hcounted hn =>
    have hn : n ≤ 6 := by
      rcases hcounted with rfl | ⟨htime, hle⟩
      · exact Nat.zero_le 6
      · have := hminute htime.symm
        omega
    have hbusy : ∀ j g, (s.setGuess k ⟨ip, .idle⟩ (.checked f m)).Busy ip j g ↔
        j = k ∧ g = .checked f m := by
      intro j g
      rw [busy_setGuess hk]
      split_ifs with hj
      · simp [hj]
      · simp [hj, hidle j g]
    exact .checked hbusy hcounted hn

lemma busy_setGuess_alone (hk : s.conns[k]? = some c)
    (hbusy : ∀ j g', s.Busy c.ip j g' ↔ j = k ∧ g' = g) (hguess : guess ≠ .idle) (j : ℕ)
    (g' : Guess) : (s.setGuess k c guess).Busy c.ip j g' ↔ j = k ∧ g' = guess := by
  rw [busy_setGuess hk]
  split_ifs with hj
  · simp [hj, hguess]
  · simp [hj, hbusy j g']

lemma not_busy_setGuess_idle (hk : s.conns[k]? = some c)
    (hbusy : ∀ j g', s.Busy c.ip j g' ↔ j = k ∧ g' = g) (j : ℕ) (g' : Guess) :
    ¬(s.setGuess k c .idle).Busy c.ip j g' := by
  rw [busy_setGuess hk]
  split_ifs with hj
  · simp
  · simp [hj, hbusy j g']

variable (h : Limited ip m base s)

include h

lemma Limited.compared (hk : s.conns[k]? = some ⟨ip, .checked f time⟩) :
    Limited ip m base ({ s with compared := (ip, time) :: s.compared }.setGuess k
      ⟨ip, .checked f time⟩ (.compared f time false)) := by
  obtain ⟨n, hg, hcount⟩ := h.guessing
  have hk' : s.Busy ip k (.checked f time) := ⟨nofun, hk⟩
  obtain ⟨hbusy, ⟨failure, heq, hcounted, hn⟩ | ⟨_, _, heq, -⟩⟩ := hg.of_busy hk'
  · cases heq
    refine ⟨h.nonneg, n + 1, .compared (busy_setGuess_alone hk hbusy nofun) hcounted hn, ?_⟩
    show ((ip, m) :: s.compared).count (ip, m) = base + (n + 1)
    rw [List.count_cons_self, hcount, Nat.add_assoc]
  · cases heq

lemma Limited.updated
    (hk : s.conns[k]? = some ⟨ip, .compared f time right⟩) {failures : LoginFailures}
    (hfailures : failures = s.failures.updateFailureWithScope ip f time right 0 .default now) :
    Limited ip m base
      ({ s with failures }.setGuess k ⟨ip, .compared f time right⟩ .idle) := by
  obtain ⟨n, hg, hcount⟩ := h.guessing
  have hk' : s.Busy ip k (.compared f time right) := ⟨nofun, hk⟩
  obtain ⟨hbusy, ⟨_, heq, -⟩ | ⟨failure, n', heq, rfl, hcounted, hn⟩⟩ := hg.of_busy hk'
  · cases heq
  · cases heq
    refine ⟨?_, n' + 1, ?_, hcount⟩
    · rw [hfailures]
      exact h.nonneg.update ip f m false now
    · apply Guessing.idle (not_busy_setGuess_idle hk hbusy) _ (Nat.succ_le_succ hn)
      show Counted m (n' + 1) (failures.entry 0 (.ip ip))
      rw [hfailures, LoginFailures.entry_update_wrong]
      exact hcounted.bump (h.nonneg _)

lemma Limited.frame (hnonneg : s'.failures.Nonneg) (hbusy : s'.Busy ip = s.Busy ip)
    (hentry : s'.failures.entry 0 (.ip ip) = s.failures.entry 0 (.ip ip))
    (hcompared : s'.compared.count (ip, m) = s.compared.count (ip, m)) : Limited ip m base s' := by
  obtain ⟨n, hg, hcount⟩ := h.guessing
  refine ⟨hnonneg, n, ?_, hcompared.trans hcount⟩
  rw [hbusy, hentry]
  exact hg

lemma Limited.step (hwrong : wrongWithin ip m s a)
    (hone : oneAtATime ip s a) (hstep : guessers.step s a = some s') : Limited ip m base s' := by
  cases steps hstep with
  | opened ip' => exact h.frame h.nonneg (busy_opened ip') rfl rfl
  | refused => exact h
  | @passed k now ip' hk hminute =>
    rcases eq_or_ne ip' ip with rfl | hne
    · obtain rfl := minute_of_wrongWithin hk hwrong
      exact h.passed hk (not_busy_of_oneAtATime hk hone) hminute _
    · exact h.frame h.nonneg (busy_setGuess_of_ne hk hne _) rfl rfl
  | @compared k right ip' failure time hk =>
    rcases eq_or_ne ip' ip with rfl | hne
    · obtain rfl := right_of_wrongWithin hk hwrong
      exact h.compared hk
    · refine h.frame h.nonneg (busy_setGuess_of_ne hk hne _) rfl ?_
      exact List.count_cons_of_ne fun heq => hne (Prod.mk.inj heq).1
  | @updated k now right ip' failure time failures hk hfailures =>
    rcases eq_or_ne ip' ip with rfl | hne
    · exact h.updated hk hfailures
    · refine h.frame ?_ (busy_setGuess_of_ne hk hne _) ?_ rfl
      · rw [hfailures]
        exact h.nonneg.update ip' failure time right now
      · show failures.entry 0 (.ip ip) = s.failures.entry 0 (.ip ip)
        rw [hfailures, LoginFailures.entry_update_of_ne hne.symm]

end Guessers

/-! ### Whole runs -/

open Guessers

lemma reachable_nonneg (hs : guessers.Reachable s) : s.failures.Nonneg := by
  induction hs with
  | init hinit =>
    rw [hinit]
    exact fun _ => le_rfl
  | step _ hstep ih =>
    cases steps hstep with
    | opened | refused | passed | compared => exact ih
    | @updated _ now right ip failure time failures _ hfailures =>
      show failures.Nonneg
      rw [hfailures]
      exact ih.update ip failure time right now

/-- If no attempt of an address is checked while another is under way, then from any state in which
none is, at most seven wrong passwords of the address are compared within a minute. -/
theorem guesses_limited {ip : Ipv4Addr} {acts : List GuessAct} (hs₀ : guessers.Reachable s₀)
    (hidle : ∀ c ∈ s₀.conns, c.ip = .v4 ip → c.guess = .idle)
    (hrun : (guessers.restrict fun s a =>
      wrongWithin (.v4 ip) m s a && oneAtATime (.v4 ip) s a).run s₀ acts = some s) :
    s.compared.count (.v4 ip, m) ≤ s₀.compared.count (.v4 ip, m) + 7 := by
  have hstart : Limited (.v4 ip) m (s₀.compared.count (.v4 ip, m)) s₀ := by
    refine ⟨reachable_nonneg hs₀, 0, .idle ?_ (.inl rfl) (by decide), rfl⟩
    rintro k g ⟨hne, hk⟩
    exact hne (hidle _ (List.mem_of_getElem? hk) rfl)
  have hend : Limited (.v4 ip) m (s₀.compared.count (.v4 ip, m)) s := by
    refine LTS.run_invariant ?_ hrun hstart
    intro s a s' hs hstep
    obtain ⟨hok, hstep⟩ := LTS.restrict_step_some hstep
    obtain ⟨hwrong, hone⟩ := Bool.and_eq_true_iff.mp hok
    exact hs.step hwrong hone hstep
  obtain ⟨n, hg, hcount⟩ := hend.guessing
  rw [hcount]
  exact Nat.add_le_add_left hg.le _

def someIp : Ipv4Addr := .new 10 0 0 1

/-- One connection that tries seven passwords, and comes for an eighth. -/
def patient : List GuessAct := .opened (.v4 someIp) ::
  (List.replicate 7 [.check 0 60000, .compare 0 false, .update 0 60000]).flatten ++ [.check 0 60000]

theorem guesses_limited_patient : ∃ s, (guessers.restrict fun s a =>
      wrongWithin (.v4 someIp) 1 s a && oneAtATime (.v4 someIp) s a).run {} patient = some s ∧
    s.compared.count (.v4 someIp, 1) = 7 ∧ s.compared.count (.v4 someIp, 1) ≤ 0 + 7 :=
  LTS.exists_run (by decide) fun _ hs _ => guesses_limited (.init rfl) nofun hs

/-- Eight connections that are all checked before the first of them is counted. -/
def flood : List GuessAct := List.replicate 8 (.opened (.v4 someIp)) ++
  (List.range 8).map (.check · 60000) ++ (List.range 8).map (.compare · false)

theorem guesses_not_limited : ∃ s,
    (guessers.restrict (wrongWithin (.v4 someIp) 1)).run {} flood = some s ∧
      7 < s.compared.count (.v4 someIp, 1) := by
  change ∃ s ∈ LTS.run _ _ _, _
  decide

end RustDesk.Login
