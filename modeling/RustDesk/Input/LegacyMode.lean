import Mathlib.Tactic

/-!
# Modifiers borrowed in the legacy keyboard mode

`legacy_keyboard_mode` (server/input_service.rs) presses the modifiers a key event lists before it
handles the key, and releases those it has pressed when it is done. What is injected is a list of
operations; how keys are found held is left open, as a function of all that was injected before.
-/

namespace RustDesk.Input

/-- The number of a control key, which may name none. -/
abbrev ControlKey := ℤ

def ControlKey.ctrlAltDel : ControlKey := 100

def ControlKey.lockScreen : ControlKey := 101

inductive KeyUnion where
  | controlKey (ck : ControlKey)
  | chr (chr : ℕ)
  | unicode (chr : ℕ)
  | seq (sequence : String)

structure KeyEvent where
  down : Bool
  modifiers : List ControlKey
  union : Option KeyUnion

inductive Op (Key : Type*) where
  | keyDown (key : Key)
  | keyUp (key : Key)
  | text (sequence : String)
  deriving DecidableEq

/-- The keyboard of a machine. -/
structure Keyboard (Key : Type*) where
  controlKeyValueToKey : ControlKey → Option Key
  /-- `is_pressed`. -/
  isPressed : List (Op Key) → Key → Bool
  /-- On Linux, `Alt` while AltGr is recorded as held. -/
  isAltgr : List (Op Key) → Key → Bool
  releaseUnpressedModifiers : KeyEvent → List (Op Key) → List (Op Key)
  /-- `process_chr`, `process_unicode` and `process_seq`, and the release of Shift before them. -/
  processText : KeyEvent → List (Op Key) → List (Op Key)

namespace Keyboard

variable {Key : Type*} (en : Keyboard Key)

/-- The operations after those that were `done`, and what is to be released. -/
def pressModifiers : List ControlKey → List (Op Key) → List (Op Key) × List Key
  | [], done => (done, [])
  | ck :: cks, done =>
    match en.controlKeyValueToKey ck with
    | none => pressModifiers cks done
    | some key =>
      if en.isPressed done key || en.isAltgr done key then pressModifiers cks done
      else
        let (done, toRelease) := pressModifiers cks (done ++ [.keyDown key])
        (done, key :: toRelease)

/-- What is done before the modifiers are pressed. -/
def released (evt : KeyEvent) (done : List (Op Key)) : List (Op Key) :=
  done ++ en.releaseUnpressedModifiers evt done

def syncModifiers (evt : KeyEvent) (done : List (Op Key)) : List (Op Key) × List Key :=
  if evt.down then en.pressModifiers evt.modifiers (en.released evt done) else (done, [])

def processControlKey (ck : ControlKey) (down : Bool) : List (Op Key) :=
  match en.controlKeyValueToKey ck with
  | some key => [if down then .keyDown key else .keyUp key]
  | none => []

def releaseKeys (toRelease : List Key) : List (Op Key) := toRelease.map .keyUp

def isFunctionKey (ck : ControlKey) : Bool :=
  if ck = .ctrlAltDel then true else if ck = .lockScreen then true else false

/-- What follows the modifiers, up to the return. -/
def handleKey (evt : KeyEvent) (done : List (Op Key)) (toRelease : List Key) : List (Op Key) :=
  match evt.union with
  | some (.controlKey ck) =>
    if isFunctionKey ck then []
    else en.processControlKey ck evt.down ++ releaseKeys toRelease
  | some (.chr _) | some (.unicode _) | some (.seq _) =>
    en.processText evt done ++ releaseKeys toRelease
  | none => releaseKeys toRelease

def legacyKeyboardMode (evt : KeyEvent) (done : List (Op Key)) : List (Op Key) :=
  let (done, toRelease) := en.syncModifiers evt done
  done ++ en.handleKey evt done toRelease

/-- A key is released and not pressed again. -/
def Released (ops : List (Op Key)) (key : Key) : Prop :=
  ∃ before after, ops = before ++ .keyUp key :: after ∧ .keyDown key ∉ after

/-- Every key that was pressed for the modifiers of an event is released in what follows. -/
def Returns (evt : KeyEvent) (done : List (Op Key)) : Prop :=
  ∃ after, en.legacyKeyboardMode evt done = (en.syncModifiers evt done).1 ++ after ∧
    ∀ key ∈ (en.syncModifiers evt done).2, Released after key

/-- Every modifier that is listed is held already. -/
def Held (cks : List ControlKey) (done : List (Op Key)) : Prop :=
  ∀ ck ∈ cks, ∀ key ∈ en.controlKeyValueToKey ck, (en.isPressed done key || en.isAltgr done key)

variable {en} {evt : KeyEvent} {done : List (Op Key)}

lemma returns_iff_handleKey : en.Returns evt done ↔ ∀ key ∈ (en.syncModifiers evt done).2, Released
    (en.handleKey evt (en.syncModifiers evt done).1 (en.syncModifiers evt done).2) key := by
  constructor
  · rintro ⟨after, hsplit, hafter⟩
    obtain rfl : en.handleKey evt _ _ = after := List.append_cancel_left hsplit
    exact hafter
  · exact fun h => ⟨_, rfl, h⟩

lemma pressModifiers_eq_nil {cks : List ControlKey} :
    (en.pressModifiers cks done).2 = [] ↔ en.Held cks done := by
  induction cks with
  | nil => simp [pressModifiers, Held]
  | cons ck cks ih =>
    rw [Held, List.forall_mem_cons, ← Held, ← ih, pressModifiers]
    cases en.controlKeyValueToKey ck with
    | none => simp
    | some key =>
      cases hheld : en.isPressed done key || en.isAltgr done key <;> simp [-Bool.or_eq_true, hheld]

lemma released_releaseKeys {toRelease : List Key} {key : Key} (h : key ∈ toRelease)
    (ops : List (Op Key)) : Released (ops ++ releaseKeys toRelease) key := by
  obtain ⟨before, after, rfl⟩ := List.append_of_mem h
  exact ⟨ops ++ before.map .keyUp, after.map .keyUp, by simp [releaseKeys], by simp⟩

lemma released_handleKey (hkey : ∀ ck, evt.union = some (.controlKey ck) → ¬isFunctionKey ck)
    {toRelease : List Key} {key : Key} (h : key ∈ toRelease) :
    Released (en.handleKey evt done toRelease) key := by
  rw [handleKey]
  split
  · rw [if_neg (hkey _ ‹_›)]
    exact released_releaseKeys h _
  · exact released_releaseKeys h _
  · exact released_releaseKeys h _
  · exact released_releaseKeys h _
  · exact released_releaseKeys h []

/-- What is borrowed is returned, except by the press of a function key that had to borrow. -/
theorem returns_iff (en : Keyboard Key) (evt : KeyEvent) (done : List (Op Key)) :
    en.Returns evt done ↔ ∀ ck, evt.union = some (.controlKey ck) → isFunctionKey ck →
      evt.down → en.Held evt.modifiers (en.released evt done) := by
  rw [returns_iff_handleKey]
  constructor
  · intro h ck hck hfunction hdown
    rw [← pressModifiers_eq_nil, List.eq_nil_iff_forall_not_mem]
    intro key hkey
    rw [syncModifiers, if_pos hdown] at h
    simpa [handleKey, hck, hfunction, Released] using h key hkey
  · intro h key hkey
    by_cases hfunction : ∀ ck, evt.union = some (.controlKey ck) → ¬isFunctionKey ck
    · exact released_handleKey hfunction hkey
    · push Not at hfunction
      obtain ⟨ck, hck, hfunction⟩ := hfunction
      rw [syncModifiers] at hkey
      split_ifs at hkey with hdown
      · rw [pressModifiers_eq_nil.mpr (h ck hck hfunction hdown)] at hkey
        cases hkey
      · cases hkey

/-- Lock screen with a modifier that is not held leaves the modifier pressed. -/
theorem not_returns_lockScreen :
    let en : Keyboard ControlKey := ⟨some, fun _ _ => false, fun _ _ => false,
      fun _ _ => [], fun _ _ => []⟩
    let evt : KeyEvent := ⟨true, [1], some (.controlKey .lockScreen)⟩
    en.legacyKeyboardMode evt [] = [.keyDown 1] ∧ ¬en.Returns evt [] := by
  intro en evt
  refine ⟨by decide, ?_⟩
  rw [returns_iff_handleKey]
  simp [syncModifiers, pressModifiers, handleKey, isFunctionKey, Released, en, evt]

end Keyboard

end RustDesk.Input
