import Mathlib.Logic.Function.Basic
import Mathlib.Tactic

/-!
# Options

An option has a value that overwrites every other, else the value that is stored, else a default.
What is stored is kept small: a value equal to the default is not stored, nor is the empty one.
-/

namespace RustDesk.Settings

/-- A `HashMap<String, String>`. -/
abbrev Options := String → Option String

/-- `OVERWRITE_SETTINGS` and `DEFAULT_SETTINGS`. -/
structure Layers where
  overwrite : Options := fun _ => none
  defaults : Options := fun _ => none

def getOr (a b c : Options) (k : String) : Option String := (a k).or ((b k).or (c k))

def isOptionCanSave (env : Layers) (k v : String) : Bool :=
  !((env.overwrite k).isSome || env.defaults k = some v)

def getOption (env : Layers) (options : Options) (k : String) : String :=
  (getOr env.overwrite options env.defaults k).getD ""

/-- `get_options` -/
def effectiveOptions (env : Layers) (options : Options) : Options :=
  getOr env.overwrite options env.defaults

/-- What `set_option` leaves stored under the key. -/
def storedAs (env : Layers) (k v : String) : Option String :=
  if !isOptionCanSave env k v then none else if v = "" then none else some v

def setOption (env : Layers) (options : Options) (k v : String) : Options :=
  Function.update options k (storedAs env k v)

variable {env : Layers} {o o' : Options} {k k' v : String}

lemma setOption_self : setOption env o k v k = storedAs env k v := Function.update_self ..

lemma setOption_of_ne (h : k' ≠ k) : setOption env o k v k' = o k' := Function.update_of_ne h ..

lemma getOption_congr (h : o k = o' k) : getOption env o k = getOption env o' k := by
  rw [getOption, getOption, getOr, getOr, h]

lemma getOption_setOption_of_ne (h : k' ≠ k) :
    getOption env (setOption env o k v) k' = getOption env o k' :=
  getOption_congr (setOption_of_ne h)

/-- An option that was overwritten keeps its value. -/
lemma getOption_overwritten {w : String} (h : env.overwrite k = some w) :
    getOption env o k = w := by
  rw [getOption, getOr, h]
  rfl

/-- What is set is what is read, unless it is overwritten; but setting the empty value is going back
to the default. -/
lemma getOption_storedAs (hoverwrite : env.overwrite k = none) (ho : o k = storedAs env k v)
    (hv : v = "" → (env.defaults k).getD "" = "") : getOption env o k = v := by
  rw [getOption, getOr, hoverwrite, ho, storedAs, isOptionCanSave, hoverwrite]
  by_cases hdefault : env.defaults k = some v
  · rw [hdefault]
    simp
  · by_cases hempty : v = ""
    · rw [hempty] at hdefault ⊢
      simpa [hdefault] using hv hempty
    · simp [hdefault, hempty]

/-- The value an option had can be set again, if the empty value was not stored. -/
lemma getOption_restored (h : o k ≠ some "")
    (ho' : o' k = storedAs env k (getOption env o k)) : getOption env o' k = getOption env o k := by
  cases hoverwrite : env.overwrite k with
  | some w => rw [getOption_overwritten hoverwrite, getOption_overwritten hoverwrite]
  | none =>
    refine getOption_storedAs hoverwrite ho' fun hempty => ?_
    rw [getOption, getOr, hoverwrite, Option.none_or] at hempty
    cases hstored : o k with
    | none =>
      rw [hstored, Option.none_or] at hempty
      exact hempty
    | some w =>
      rw [hstored] at hempty h
      exact absurd (congrArg some hempty) h

end RustDesk.Settings
