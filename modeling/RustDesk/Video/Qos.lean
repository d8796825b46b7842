import RustDesk.Lib.HashMap
import RustDesk.Lib.Transition
import RustDesk.Video.Rtt

/-!
# The quality of a video stream

One stream serves several viewers. Each viewer has a frame rate of its own, its target, which
follows the delay of the replies to its probes; the stream takes the lowest of them. The bitrate
follows the delay of all viewers together, as a ratio to what the resolution asks for.

`f32` is a type of its own, with the operations the code uses; nothing is assumed of them.
Instants are milliseconds, and the clock is read once for each call.
-/

namespace RustDesk.Video

/-- The operations of `f32`. -/
structure F32 (F : Type) where
  lit : ℚ → F
  /-- `as f32` -/
  ofNat : ℕ → F
  mul : F → F → F
  div : F → F → F
  lt : F → F → Bool
  le : F → F → Bool
  max : F → F → F
  min : F → F → F
  /-- `.ceil() as u32` -/
  ceil : F → ℕ

/-- Exact arithmetic in place of floating point. -/
def F32.exact : F32 ℚ where
  lit x := x
  ofNat n := n
  mul x y := x * y
  div x y := x / y
  lt x y := x < y
  le x y := x ≤ y
  max x y := x ⊔ y
  min x y := x ⊓ y
  ceil x := x.ceil.toNat

/-- `f32::clamp` -/
def F32.clamp {F : Type} (R : F32 F) (x lo hi : F) : F :=
  if R.lt x lo then lo else if R.lt hi x then hi else x

def defaultFps : ℕ := 30

def minFps : ℕ := 1

def maxFps : ℕ := 120

def initFps : ℕ := 15

def minAutoFps : ℕ := 5

def historyDelayLen : ℕ := 2

def adjustRatioInterval : ℕ := 3

def dynamicScreenThreshold : ℕ := 2

def delayThreshold150ms : ℕ := 150

def restoreGuardSamples : ℕ := 5

def u8Max : ℕ := 255

/-! ### The delay of one viewer -/

structure UserDelay where
  stallTicks : ℕ := 0
  delayHistory : List ℕ := []
  fps : Option ℕ := none
  rttCalculator : RttCalculator := {}
  quickIncreaseFpsCount : ℕ := 0
  increaseFpsCount : ℕ := 0
  consecutiveBadSamples : ℕ := 0
  fpsBadSamples : ℕ := 0
  goodSamples : ℕ := 0
  repliesAfterBitrateReduction : Option ℕ := none
  fpsBeforeCongestion : Option ℕ := none
  samplesSinceRestore : Option ℕ := none
  stallReferenceFps : Option ℕ := none
  startupGoodSamples : ℕ := 0
  deriving DecidableEq

namespace UserDelay

def addDelay (u : UserDelay) (delay : ℕ) : UserDelay :=
  { u with delayHistory := Window.slide historyDelayLen u.delayHistory delay }

/-- The delay above the baseline. -/
def excess (u : UserDelay) (delay : ℕ) : ℕ := delay - u.rttCalculator.getRtt.getD 0

/-- `iter().sum::<u32>()`, which wraps. -/
def sumU32 (xs : List ℕ) : ℕ := xs.sum % 2 ^ 32

def avgDelay (u : UserDelay) : ℕ :=
  if u.delayHistory.isEmpty then delayThreshold150ms
  else u.excess (sumU32 u.delayHistory / u.delayHistory.length)

/-- The first reduction of an episode remembers the level to return to. -/
def onReduction (u : UserDelay) (currentFps : ℕ) : UserDelay :=
  { u with
    startupGoodSamples := u8Max
    goodSamples := 0
    fpsBadSamples := 0
    fpsBeforeCongestion := u.fpsBeforeCongestion.or (some currentFps) }

def recover (u : UserDelay) (currentFps fps : ℕ) : ℕ × UserDelay :=
  let gradual := currentFps + max (currentFps / 10) 1
  match u.goodSamples, u.fpsBeforeCongestion.filter (currentFps < ·) with
  | 2, some level | 3, some level =>
    (max fps level, { u with fpsBeforeCongestion := none, samplesSinceRestore := some 0 })
  | 3, none =>
    (max fps (currentFps + max (currentFps / 5) 2), { u with fpsBeforeCongestion := none })
  | _, _ => (gradual, u)

/-- The counters after a reply at all. -/
def countReply (u : UserDelay) : UserDelay :=
  { u with samplesSinceRestore := u.samplesSinceRestore.map fun samples => min (samples + 1) u8Max }

/-- The counters after a reply under the threshold. -/
def countGood (u : UserDelay) : UserDelay :=
  { u with
    consecutiveBadSamples := 0
    fpsBadSamples := 0
    repliesAfterBitrateReduction := none
    goodSamples := min (u.goodSamples + 1) 3 }

/-- The counters after a reply over the threshold. -/
def countBad (u : UserDelay) : UserDelay :=
  { u with
    consecutiveBadSamples := min (u.consecutiveBadSamples + 1) 3
    fpsBadSamples := min (u.fpsBadSamples + 1) 3
    repliesAfterBitrateReduction := u.repliesAfterBitrateReduction.map fun n => min (n + 1) 2 }

/-- A level was restored not long ago. -/
def restoreGuarded (u : UserDelay) : Bool :=
  u.samplesSinceRestore.any (· ≤ restoreGuardSamples)

def failedRestore (u : UserDelay) (excess : ℕ) : Bool := 600 ≤ excess && u.restoreGuarded

/-- A level that congests right after being restored is not the level to return to. -/
def judgeRestore (u : UserDelay) (currentFps : ℕ) (excess : ℕ) : UserDelay :=
  if u.restoreGuarded && (u.failedRestore excess || 3 ≤ u.consecutiveBadSamples) then
    { u with
      fpsBeforeCongestion := some (currentFps - currentFps / 4)
      samplesSinceRestore := none }
  else u

def limitFpsChange (u : UserDelay) (currentFps fps delay : ℕ) (bitrateFirst braked : Bool) :
    ℕ × UserDelay :=
  let excess := u.excess delay
  let u := u.countReply
  if excess < delayThreshold150ms then u.countGood.recover currentFps fps
  else
    let u := u.countBad
    let failedRestore := u.failedRestore excess
    let u := u.judgeRestore currentFps excess
    -- the timeout brake has reduced for the probe this reply answers
    if fps ≥ currentFps || braked then (currentFps, u)
    else if !failedRestore && excess < 1000 && (u.fpsBadSamples < 3 ||
        (bitrateFirst && u.repliesAfterBitrateReduction.getD 0 < 2)) then
      (currentFps, u)
    else
      let divisor := if 1000 ≤ excess || failedRestore then 2 else 5
      (max fps (currentFps - max (currentFps / divisor) 1), u.onReduction currentFps)

def accelerateStartup (u : UserDelay) (currentFps fps cap delay : ℕ) (braked : Bool) :
    ℕ × UserDelay :=
  if u.startupGoodSamples = u8Max then (fps, u)
  else if braked || 50 ≤ u.excess delay || currentFps ≥ cap then
    (fps, { u with startupGoodSamples := u8Max })
  else if u.startupGoodSamples + 1 < 2 then
    (fps, { u with startupGoodSamples := u.startupGoodSamples + 1 })
  else
    let accelerated := min (max fps (min (currentFps * 2) u32Max)) cap
    (accelerated, { u with startupGoodSamples := if accelerated ≥ cap then u8Max else 0 })

def needsBitrateReduction (u : UserDelay) : Bool :=
  2 ≤ u.consecutiveBadSamples || 2 ≤ u.stallTicks

/-- The bitrate step a viewer's own evidence calls for. -/
def ratioReduction (u : UserDelay) : Option ℚ :=
  if !u.needsBitrateReduction then none
  else
    let excess := u.avgDelay
    let confirmed := 3 ≤ u.consecutiveBadSamples
    some <|
      if excess < 200 then 0.95
      else if excess < 300 then 0.9
      else if excess < 500 then if confirmed then 0.7 else 0.85
      else if confirmed then 0.5 else 0.8

/-- A reply closes the outstanding probe. It enters the baseline unless the probe was braked for. -/
def hear (u : UserDelay) (delay : ℕ) : UserDelay :=
  let heard := { u with
    stallTicks := 0
    stallReferenceFps := none
    rttCalculator :=
      if u.stallReferenceFps.isSome then u.rttCalculator else u.rttCalculator.update delay }
  heard.addDelay delay

/-- The frame rate the average delay asks for, before anything limits it. -/
def adaptFps {F : Type} (R : F32 F) (u : UserDelay)
    (minFps normalFps avgDelay oldAvgDelay fps : ℕ) :
    ℕ × UserDelay :=
  let dividendMs := delayThreshold150ms * minFps
  let (fps, quick) :=
    if avgDelay < 50 then
      if 3 ≤ u.quickIncreaseFpsCount + 1 then (max minFps (fps + 5), 0)
      else (max minFps (fps + if fps < normalFps then 1 else 0), u.quickIncreaseFpsCount + 1)
    else if avgDelay < 100 then
      (max minFps (fps + if avgDelay < oldAvgDelay ∧ fps < normalFps then 1 else 0),
        u.quickIncreaseFpsCount)
    else if avgDelay < delayThreshold150ms then (max minFps fps, u.quickIncreaseFpsCount)
    else
      let devideFps := R.ceil (R.div (R.ofNat fps)
        (R.div (R.ofNat avgDelay) (R.ofNat delayThreshold150ms)))
      (if avgDelay < 200 then max minFps devideFps
        else if avgDelay < 300 then min minFps devideFps
        else if avgDelay < 600 then dividendMs / avgDelay
        else min (dividendMs / avgDelay) devideFps,
        u.quickIncreaseFpsCount)
  let increase := if avgDelay < delayThreshold150ms then u.increaseFpsCount + 1 else 0
  let (fps, increase) := if 3 ≤ increase then (fps + 1, 0) else (fps, increase)
  (fps, { u with
    quickIncreaseFpsCount := if 50 < avgDelay then 0 else quick
    increaseFpsCount := increase })

end UserDelay

/-! ### Viewers and displays -/

inductive Quality (F : Type) where
  | best
  | balanced
  | low
  | custom (ratio : F)
  deriving DecidableEq

section

variable {F : Type} (R : F32 F)

def brBest : F := R.lit 1.5

def brBalanced : F := R.lit 0.67

def brSpeed : F := R.lit 0.5

def brMax : F := R.lit 40

def brMin : F := R.lit 0.2

def brMinHighResolution : F := R.lit 0.1

def maxBrMultiple : F := R.lit 1

def Quality.ratio : Quality F → F
  | best => brBest R
  | balanced => brBalanced R
  | low => brSpeed R
  | custom ratio => ratio

/-- `convert_quality`; the three named values of `ImageQuality` are 3, 2 and 4. -/
def convertQuality (q : ℤ) : Quality F :=
  if q = 3 then .balanced
  else if q = 2 then .low
  else if q = 4 then .best
  else
    let b := R.div (R.ofNat ((q / 256 % 4096).toNat * 2)) (R.lit 100)
    .custom (R.clamp b (brMin R) (brMax R))

end

structure UserData (F : Type) where
  autoAdjustFps : Option ℕ := none
  customFps : Option ℕ := none
  quality : Option (ℤ × Quality F) := none
  delay : UserDelay := {}
  joinedAt : Option ℕ := none
  deriving DecidableEq

namespace UserData

variable {F : Type}

def fpsCap (u : UserData F) : ℕ :=
  let fps := u.customFps.getD defaultFps
  let fps := match u.autoAdjustFps with
    | some autoAdjustFps => if fps = 0 ∨ autoAdjustFps < fps then autoAdjustFps else fps
    | none => fps
  clamp fps minFps maxFps

/-- The frame rate a viewer is at. -/
def currentFps (u : UserData F) : ℕ := u.delay.fps.getD (min initFps u.fpsCap)

/-- What a reply does to its viewer, and whether it calls for an adjustment of the ratio, as the
first reply or for a lower bitrate. -/
def reply (R : F32 F) (minFps normalFps : ℕ) (bitrateFirst : Bool) (delay : ℕ) (u : UserData F) :
    UserData F × Bool × Bool :=
  let delay := max delay 10
  let braked := u.delay.stallReferenceFps.isSome
  let heard := u.delay.hear delay
  let avgDelay := max heard.avgDelay 10
  let userCap := u.fpsCap
  let currentFps := u.currentFps
  let adapted := heard.adaptFps R minFps normalFps avgDelay u.delay.avgDelay currentFps
  let fps := if bitrateFirst then max adapted.1 minFps else adapted.1
  let fps := max fps (min minAutoFps userCap)
  let limited := adapted.2.limitFpsChange currentFps fps delay bitrateFirst braked
  let accelerated := limited.2.accelerateStartup currentFps limited.1 userCap delay braked
  let d := accelerated.2
  let reduceBitrate := bitrateFirst && d.needsBitrateReduction &&
    d.repliesAfterBitrateReduction.isNone
  ({ u with delay := { d with fps := some (clamp accelerated.1 Video.minFps userCap) } },
    u.delay.fps.isNone, reduceBitrate)

/-- What an outstanding probe does to its viewer, once it is out for more than two seconds. -/
def stall (elapsed : ℕ) (u : UserData F) : UserData F :=
  let d := { u.delay with stallTicks := min (u.delay.stallTicks + 1) u8Max }
  let d := d.addDelay (elapsed % 2 ^ 32)
  let (reference, d) := match d.stallReferenceFps with
    | some reference => (reference, d)
    | none =>
      (u.currentFps, { d with stallReferenceFps := some u.currentFps }.onReduction u.currentFps)
  let divisor := 2 ^ min (elapsed / 1000 % 2 ^ 32 - 1) 5
  let userCap := u.fpsCap
  let current := d.fps.getD reference
  let fps := min (clamp (reference / divisor) (min minAutoFps userCap) userCap) current
  { u with delay := { d with fps := some fps } }

/-- A viewer that calls for a lower bitrate counts its replies from the reduction on. -/
def awaitReplies (u : UserData F) (replies : ℕ) : UserData F :=
  if u.delay.needsBitrateReduction && u.delay.repliesAfterBitrateReduction.isNone then
    { u with delay := { u.delay with repliesAfterBitrateReduction := some replies } }
  else u

end UserData

structure DisplayData where
  sendCounter : ℕ := 0
  supportChangingQuality : Bool := false
  deriving DecidableEq

/-! ### The controller -/

structure VideoQoS (F : Type) where
  fps : ℕ
  ratio : F
  users : HMap ℤ (UserData F)
  displays : HMap String DisplayData
  bitrateStore : ℕ
  adjustRatioInstant : ℕ
  abrConfig : Bool
  firstReplyAdjustsRatio : Bool

namespace VideoQoS

variable {F : Type} (R : F32 F)

/-- `Default`, on a platform where the first reply adjusts the ratio or one where it does not. -/
def default (firstReplyAdjustsRatio : Bool) (now : ℕ) : VideoQoS F where
  fps := defaultFps
  ratio := brBalanced R
  users := .empty
  displays := .empty
  bitrateStore := 0
  adjustRatioInstant := now
  abrConfig := true
  firstReplyAdjustsRatio := firstReplyAdjustsRatio

/-- `as_secs` of the time since an instant. -/
def secsSince (now instant : ℕ) : ℕ := (now - instant) / 1000

/-- The frame rate of the stream. -/
def publishedFps (s : VideoQoS F) : ℕ :=
  if minFps ≤ s.fps ∧ s.fps ≤ maxFps then s.fps else defaultFps

def storeBitrate (s : VideoQoS F) (bitrate : ℕ) : VideoQoS F := { s with bitrateStore := bitrate }

/-- `ratio()`, which puts a ratio out of bounds right. -/
def checkRatio (s : VideoQoS F) : VideoQoS F :=
  if R.lt s.ratio (brMinHighResolution R) || R.lt (brMax R) s.ratio then
    { s with ratio := brBalanced R } else s

def setSupportChangingQuality (s : VideoQoS F) (name : String) (support : Bool) : VideoQoS F :=
  { s with
    displays := s.displays.modify name fun d => { d with supportChangingQuality := support } }

def inVbrState (s : VideoQoS F) : Bool :=
  s.abrConfig && s.displays.values.all (·.supportChangingQuality)

def highestFps (s : VideoQoS F) : ℕ :=
  clamp ((s.users.values.map UserData.fpsCap).min?.getD defaultFps) minFps maxFps

/-- The last of the latest. -/
def latest : List (ℤ × Quality F) → Option (ℤ × Quality F)
  | [] => none
  | q :: qs => some (qs.foldl (fun a b => if b.1 < a.1 then a else b) q)

def latestQuality (s : VideoQoS F) : Quality F :=
  ((latest (s.users.values.filterMap UserData.quality)).getD (0, .balanced)).2

def minRatio (s : VideoQoS F) : F :=
  let ratio1mbps :=
    if 0 < s.bitrateStore then
      some (R.max (R.div (R.mul s.ratio (R.lit 1000)) (R.ofNat s.bitrateStore))
        (brMinHighResolution R))
    else none
  let lower (lowest : F) : F := match ratio1mbps with
    | some ratio1mbps => if R.lt ratio1mbps lowest then ratio1mbps else lowest
    | none => lowest
  match s.latestQuality with
  | .best => R.max (lower (R.div (brBest R) (R.lit 2.5))) (brMin R)
  | .balanced =>
    R.max (lower (R.min (R.div (brBalanced R) (R.lit 2)) (R.lit 0.4))) (brMinHighResolution R)
  | .low | .custom _ => brMinHighResolution R

def canReduceBitrate (s : VideoQoS F) : Bool :=
  s.inVbrState && !s.displays.isEmpty && R.lt (R.mul (s.minRatio R) (R.lit 1.02)) s.ratio

def resetSendCounters (s : VideoQoS F) : VideoQoS F :=
  { s with displays := s.displays.map fun _ d => { d with sendCounter := 0 } }

/-- `reduce(f32::min)` over the steps the viewers call for. -/
def reduction (s : VideoQoS F) : Option F :=
  match s.users.values.filterMap fun u => u.delay.ratioReduction.map R.lit with
  | [] => none
  | step :: steps => some (steps.foldl R.min step)

/-- The ratio an adjustment goes to, between the least of the latest quality and its own. -/
def nextRatio (s : VideoQoS F) (reduction : Option F) (maxDelay : ℕ) (dynamicScreen : Bool) : F :=
  let targetRatio := s.latestQuality.ratio R
  let currentRatio := s.ratio
  let ratioAdd150kbps :=
    if 0 < s.bitrateStore then
      some (R.div (R.mul (R.ofNat (s.bitrateStore + 150)) currentRatio) (R.ofNat s.bitrateStore))
    else none
  let v := match reduction with
    | some factor => R.mul currentRatio factor
    | none =>
      if !dynamicScreen then currentRatio
      else if maxDelay < 50 then R.mul currentRatio (R.lit 1.15)
      else if maxDelay < 100 then R.mul currentRatio (R.lit 1.1)
      else R.mul currentRatio (R.lit 1.05)
  -- the increase is limited for better stability
  let v := match ratioAdd150kbps with
    | some added =>
      if R.lt added v && R.lt currentRatio added && R.le (brSpeed R) currentRatio then added
      else v
    | none => v
  R.clamp v (s.minRatio R) (R.mul targetRatio (maxBrMultiple R))

def adjustRatio (s : VideoQoS F) (dynamicScreen : Bool) (now : ℕ) : VideoQoS F :=
  if !s.inVbrState then s
  else
    match (s.users.values.map fun u => u.delay.avgDelay).max? with
    | none => s
    | some maxDelay =>
      let reduction := s.reduction R
      if reduction.isNone && delayThreshold150ms ≤ maxDelay then s.resetSendCounters
      else
        let ratio := s.nextRatio R reduction maxDelay dynamicScreen
        let replies := if R.lt ratio s.ratio then 0 else 2
        let users :=
          if reduction.isSome then s.users.map fun _ u => u.awaitReplies replies else s.users
        { s with users, ratio, adjustRatioInstant := now }.resetSendCounters

def adjustFps (s : VideoQoS F) (now : ℕ) : VideoQoS F :=
  let fps := (s.users.values.map fun u => u.delay.fps.getD initFps).min?.getD initFps
  -- a viewer inside its first second keeps the stream at the initial rate
  let starting := s.users.values.any fun u => u.joinedAt.any fun joined => secsSince now joined < 1
  let fps := if starting then min fps initFps else fps
  { s with fps := clamp fps minFps s.highestFps }

/-- `abr` is the option `enable-abr`, read when a viewer connects. -/
def onConnectionOpen (s : VideoQoS F) (id : ℤ) (abr : Bool) (now : ℕ) : VideoQoS F :=
  { s with users := s.users.insert id { joinedAt := some now }, abrConfig := abr }

def onConnectionClose (s : VideoQoS F) (id : ℤ) (now : ℕ) : VideoQoS F :=
  let users := s.users.erase id
  if users.isEmpty then default R s.firstReplyAdjustsRatio now
  else { s with users }.adjustFps now

/-- A frame rate that a viewer asks for is taken if it is in range. -/
def userFps (s : VideoQoS F) (id : ℤ) (fps : ℕ) (set : UserData F → UserData F) : VideoQoS F :=
  if fps < minFps ∨ maxFps < fps then s else { s with users := s.users.modify id set }

def userCustomFps (s : VideoQoS F) (id : ℤ) (fps : ℕ) : VideoQoS F :=
  s.userFps id fps fun u => { u with customFps := some fps }

def userAutoAdjustFps (s : VideoQoS F) (id : ℤ) (fps : ℕ) : VideoQoS F :=
  s.userFps id fps fun u => { u with autoAdjustFps := some fps }

def userImageQuality (s : VideoQoS F) (id : ℤ) (imageQuality : ℤ) (time : ℤ) : VideoQoS F :=
  match s.users.get id with
  | none => s
  | some _ =>
    let s := { s with users := s.users.modify id fun u =>
      { u with quality := some (time, convertQuality R imageQuality) } }
    { s with ratio := s.latestQuality.ratio R }

/-- The least and the usual frame rate of a ratio: the lower the ratio, the higher the rates. -/
def fpsRange (targetRatio : F) : ℕ × ℕ :=
  if R.le (brBest R) targetRatio then (8, 16)
  else if R.le (brBalanced R) targetRatio then (10, 20)
  else (12, 24)

def userNetworkDelay (s : VideoQoS F) (id : ℤ) (delay : ℕ) (now : ℕ) : VideoQoS F :=
  let range := fpsRange R (s.latestQuality.ratio R)
  let bitrateFirst := s.canReduceBitrate R
  match s.users.get id with
  | none => s.adjustFps now
  | some user =>
    let (user, adjustRatio, reduceBitrate) := user.reply R range.1 range.2 bitrateFirst delay
    let s := { s with users := s.users.modify id fun _ => user }.adjustFps now
    let s :=
      if adjustRatio && s.firstReplyAdjustsRatio &&
          adjustRatioInterval ≤ secsSince now s.adjustRatioInstant then
        s.adjustRatio R false now
      else s
    if reduceBitrate && adjustRatioInterval ≤ secsSince now s.adjustRatioInstant then
      s.adjustRatio R false now
    else s

def userDelayResponseElapsed (s : VideoQoS F) (id : ℤ) (elapsed : ℕ) (now : ℕ) : VideoQoS F :=
  match s.users.get id with
  | none => s
  | some _ =>
    if elapsed ≤ 2000 then s
    else { s with users := s.users.modify id (UserData.stall elapsed) }.adjustFps now

def newDisplay (s : VideoQoS F) (name : String) : VideoQoS F :=
  { s with displays := s.displays.insert name {} }

def removeDisplay (s : VideoQoS F) (name : String) : VideoQoS F :=
  { s with displays := s.displays.erase name }

def updateDisplayData (s : VideoQoS F) (name : String) (sendCounter : ℕ) (now : ℕ) : VideoQoS F :=
  let s := { s with displays := s.displays.modify name fun d =>
    { d with sendCounter := d.sendCounter + sendCounter } }
  let s := s.adjustFps now
  if s.inVbrState then
    if adjustRatioInterval ≤ secsSince now s.adjustRatioInstant then
      let dynamicScreen := s.displays.values.any fun d =>
        adjustRatioInterval * dynamicScreenThreshold ≤ d.sendCounter
      s.adjustRatio R dynamicScreen now
    else s
  else { s with ratio := s.latestQuality.ratio R }

end VideoQoS

/-! ### Runs -/

/-- The calls of the controller, each with the time it is made and what it reads from elsewhere. -/
inductive QosAct where
  | connectionOpen (id : ℤ) (abr : Bool) (now : ℕ)
  | connectionClose (id : ℤ) (now : ℕ)
  | customFps (id : ℤ) (fps : ℕ)
  | autoAdjustFps (id : ℤ) (fps : ℕ)
  | imageQuality (id : ℤ) (imageQuality : ℤ) (time : ℤ)
  | networkDelay (id : ℤ) (delay : ℕ) (now : ℕ)
  | responseElapsed (id : ℤ) (elapsed : ℕ) (now : ℕ)
  | newDisplay (name : String)
  | removeDisplay (name : String)
  | displayData (name : String) (sendCounter : ℕ) (now : ℕ)
  | supportChangingQuality (name : String) (support : Bool)
  | storeBitrate (bitrate : ℕ)
  | checkRatio
  /-- The map of the viewers iterates in another order. -/
  | reorder (ids : List ℤ)
  deriving DecidableEq

namespace VideoQoS

variable {F : Type} (R : F32 F)

def act (s : VideoQoS F) : QosAct → VideoQoS F
  | .connectionOpen id abr now => s.onConnectionOpen id abr now
  | .connectionClose id now => s.onConnectionClose R id now
  | .customFps id fps => s.userCustomFps id fps
  | .autoAdjustFps id fps => s.userAutoAdjustFps id fps
  | .imageQuality id imageQuality time => s.userImageQuality R id imageQuality time
  | .networkDelay id delay now => s.userNetworkDelay R id delay now
  | .responseElapsed id elapsed now => s.userDelayResponseElapsed id elapsed now
  | .newDisplay name => s.newDisplay name
  | .removeDisplay name => s.removeDisplay name
  | .displayData name sendCounter now => s.updateDisplayData R name sendCounter now
  | .supportChangingQuality name support => s.setSupportChangingQuality name support
  | .storeBitrate bitrate => s.storeBitrate bitrate
  | .checkRatio => s.checkRatio R
  | .reorder ids =>
    if h : ids.Perm s.users.keys then { s with users := s.users.reorder ids h } else s

end VideoQoS

end RustDesk.Video
