import Mathlib.Tactic

/-!
# Flow control of a port-forward channel

The window constants, the receiver's `RecvWindow` and the sender's `SendCredit`. Machine words
are natural numbers with the saturating operations of the source written out; the amounts a
peer sends are not assumed to be below any bound.

`SendCredit::add` updates the credit under its lock and calls `notify_one` after the lock is
released, so the two halves are separate operations here (`addLocked`, `notifyOne`), and
`adding` counts the frame handler's calls that are between the two.
-/

namespace RustDesk.PortForward

/-! ### Constants -/

/-- What the controller may have in flight on a channel before `opened` brings the peer's window. -/
def initialWindow : ℕ := 64 * 1024

/-- The window a `data` frame costs at minimum, whatever its length. -/
def minFrameCharge : ℕ := 64

def channelWindow : ℕ := 256 * 1024

def maxFrame : ℕ := 64 * 1024

def updateThreshold : ℕ := channelWindow / 2

def maxChannels : ℕ := 256

def dataQueueFrames : ℕ := 128

def maxSendCredit : ℕ := channelWindow

def u32Max : ℕ := 2 ^ 32 - 1

def saturatingAdd (a b : ℕ) : ℕ := min (a + b) u32Max

def effectiveWindow (advertised : ℕ) : ℕ := max advertised initialWindow

/-- What a `data` frame of this length costs its channel's window. -/
def charge (len : ℕ) : ℕ := max (if len ≤ u32Max then len else u32Max) minFrameCharge

lemma minFrameCharge_le_charge (len : ℕ) : minFrameCharge ≤ charge len := le_max_right _ _

lemma charge_le_of_le {len allow : ℕ} (h : len ≤ allow) (hmin : minFrameCharge ≤ allow) :
    charge len ≤ allow := by
  unfold charge
  refine max_le ?_ hmin
  split_ifs <;> omega

/-! ### The receiver -/

/-- The credit the peer still has, and what was drained to the local socket since the last
`window_update`. -/
structure RecvWindow where
  remaining : ℕ
  drainedSinceUpdate : ℕ
  deriving DecidableEq

namespace RecvWindow

variable {w : RecvWindow} {len : ℕ}

def new (granted : ℕ) : RecvWindow := ⟨effectiveWindow granted, 0⟩

/-- `false` means that the peer overran the window. -/
def accept (w : RecvWindow) (len : ℕ) : RecvWindow × Bool :=
  if charge len ≤ w.remaining then
    ({ w with remaining := w.remaining - charge len }, true)
  else
    (w, false)

/-- Widens the window without advertising: the grant travels in `opened`. -/
def grant (w : RecvWindow) (n : ℕ) : RecvWindow :=
  { w with remaining := saturatingAdd w.remaining n }

/-- The amount to advertise in a `window_update` once enough has been drained; the same amount
is credited back. -/
def drained (w : RecvWindow) (n : ℕ) : RecvWindow × Option ℕ :=
  let total := saturatingAdd w.drainedSinceUpdate (charge n)
  if total < updateThreshold then
    ({ w with drainedSinceUpdate := total }, none)
  else
    ({ remaining := saturatingAdd w.remaining total, drainedSinceUpdate := 0 }, some total)

lemma accept_of_le (h : charge len ≤ w.remaining) :
    w.accept len = ({ w with remaining := w.remaining - charge len }, true) := if_pos h

lemma accept_of_lt (h : w.remaining < charge len) : w.accept len = (w, false) := if_neg (by omega)

lemma accept_snd (w : RecvWindow) (len : ℕ) :
    (w.accept len).2 = true ↔ charge len ≤ w.remaining := by
  unfold accept
  split_ifs with h <;> simp [h]

/-- `drained` either counts the chunk or gives everything counted back, never saturating as long
as the window stays below a machine word. -/
lemma drained_cases (w : RecvWindow) (n : ℕ)
    (h : w.remaining + w.drainedSinceUpdate + charge n ≤ u32Max) :
    (w.drained n = (⟨w.remaining, w.drainedSinceUpdate + charge n⟩, none) ∧
      w.drainedSinceUpdate + charge n < updateThreshold) ∨
    (w.drained n = (⟨w.remaining + (w.drainedSinceUpdate + charge n), 0⟩,
      some (w.drainedSinceUpdate + charge n))) := by
  have htotal : saturatingAdd w.drainedSinceUpdate (charge n)
      = w.drainedSinceUpdate + charge n := by
    unfold saturatingAdd
    omega
  simp only [drained, htotal]
  split_ifs with hlt
  · exact Or.inl ⟨rfl, hlt⟩
  · refine Or.inr ?_
    have : saturatingAdd w.remaining (w.drainedSinceUpdate + charge n)
        = w.remaining + (w.drainedSinceUpdate + charge n) := by
      unfold saturatingAdd
      omega
    rw [this]

end RecvWindow

/-! ### The sender -/

/-- The one task that can wait on a channel's `Notify`: `notified` says that `notify_one` has
picked it and it has not run since. -/
inductive Waiter where
  | absent
  | waiting
  | notified
  deriving DecidableEq

/-- Tokio's `Notify` with a single waiting task: at most one permit is stored. -/
structure Notify where
  permit : Bool
  waiter : Waiter
  deriving DecidableEq

namespace Notify

def new : Notify := ⟨false, .absent⟩

/-- Wakes the waiting task, or stores the permit when none waits. -/
def notifyOne (n : Notify) : Notify :=
  match n.waiter with
  | .waiting => { n with waiter := .notified }
  | _ => { n with permit := true }

/-- The first poll of `notified()`: takes the stored permit (`true`), or registers the task. -/
def poll (n : Notify) : Notify × Bool :=
  if n.permit then ({ n with permit := false }, true) else ({ n with waiter := .waiting }, false)

/-- Dropping the `notified()` future: a wake-up it was given and never saw is handed on. -/
def drop (n : Notify) : Notify :=
  match n.waiter with
  | .notified => notifyOne { n with waiter := .absent }
  | _ => { n with waiter := .absent }

end Notify

/-- Sender-side credit. -/
structure SendCredit where
  credit : ℕ
  notify : Notify
  /-- calls of `add` by the frame handler that still have to call `notify_one` -/
  adding : ℕ
  deriving DecidableEq

namespace SendCredit

variable {c : SendCredit} {max : ℕ}

def new (initial : ℕ) : SendCredit := ⟨min initial maxSendCredit, Notify.new, 0⟩

/-- The locked part of one round of `take`. -/
def tryTake (c : SendCredit) (max : ℕ) : Option (ℕ × SendCredit) :=
  if minFrameCharge ≤ c.credit then
    some (min c.credit max, { c with credit := c.credit - min c.credit max })
  else
    none

/-- The locked part of `add`. -/
def addLocked (c : SendCredit) (n : ℕ) : SendCredit :=
  { c with credit := min (saturatingAdd c.credit n) maxSendCredit }

def notifyOne (c : SendCredit) : SendCredit := { c with notify := c.notify.notifyOne }

/-- `add`, called by the frame handler, up to its `notify_one`. -/
def add (c : SendCredit) (n : ℕ) : SendCredit :=
  { c.addLocked n with adding := c.adding + 1 }

/-- The rest of such an `add`. -/
def finishAdd (c : SendCredit) : Option SendCredit :=
  if c.adding = 0 then none else some { c.notifyOne with adding := c.adding - 1 }

/-- The controller starts a channel with `initialWindow` of credit; when `opened` advertises the
peer's real window this re-bases to it. -/
def raiseInitial (c : SendCredit) (total : ℕ) : SendCredit :=
  if 0 < effectiveWindow total - initialWindow then
    c.add (effectiveWindow total - initialWindow)
  else
    c

lemma addLocked_credit (c : SendCredit) (n : ℕ) :
    (c.addLocked n).credit = min (c.credit + n) maxSendCredit := by
  have : maxSendCredit ≤ u32Max := by decide
  simp only [addLocked, saturatingAdd]
  omega

lemma tryTake_eq_some {c' : SendCredit} {n : ℕ} (h : c.tryTake max = some (n, c')) :
    minFrameCharge ≤ c.credit ∧ n = min c.credit max ∧
      c' = { c with credit := c.credit - min c.credit max } := by
  unfold tryTake at h
  split_ifs at h with hc
  simp only [Option.some.injEq, Prod.mk.injEq] at h
  exact ⟨hc, h.1.symm, h.2.symm⟩

lemma tryTake_eq_none (h : c.tryTake max = none) : c.credit < minFrameCharge := by
  unfold tryTake at h
  split_ifs at h with hc
  omega

end SendCredit

end RustDesk.PortForward
