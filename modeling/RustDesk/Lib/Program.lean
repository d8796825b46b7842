import Mathlib.Tactic

/-!
# Programs that may fail

A program on a state returns a value or fails, and leaves a state behind either way: what was done
before a failure stays done. `wp m Q R s` says that the program `m` started in `s` returns in `Q` or
fails in `R`; the rules follow the shape of the program. A program that cannot fail has `R` false.
-/

/-- Programs whose state survives a failure. -/
abbrev Prog (ε σ α : Type) := EStateM ε σ α

namespace Prog

variable {ε σ α β : Type}

/-- The state that is left behind. -/
def stateOf : EStateM.Result ε σ α → σ
  | .ok _ s => s
  | .error _ s => s

def after (m : Prog ε σ α) (s : σ) : σ := stateOf (m s)

/-- Fail with `e` unless the condition holds. -/
def check (b : Bool) (e : ε) : Prog ε σ Unit := if b then pure () else throw e

/-- The value, or fail with `e`. -/
def require (o : Option α) (e : ε) : Prog ε σ α :=
  match o with
  | some a => pure a
  | none => throw e

/-- Nothing is done without a value. -/
def onSome (o : Option α) (f : α → Prog ε σ Unit) : Prog ε σ Unit :=
  match o with
  | some a => f a
  | none => pure ()

def whenever (b : Bool) (m : Prog ε σ Unit) : Prog ε σ Unit := if b then m else pure ()

/-- The outcome of a program is dropped, what it did stays. -/
def ignore (m : Prog ε σ α) : Prog ε σ Unit := fun s => .ok () (m.after s)

/-- The state is changed after the program, whether it failed or not. -/
def finally_ (m : Prog ε σ α) (f : σ → σ) : Prog ε σ α := fun s =>
  match m s with
  | .ok a s' => .ok a (f s')
  | .error e s' => .error e (f s')

/-- The failures are changed. -/
def mapFailure (f : ε → ε) (m : Prog ε σ α) : Prog ε σ α := fun s =>
  match m s with
  | .ok a s' => .ok a s'
  | .error e s' => .error (f e) s'

/-- Some failures are answered by a value; what was done before stays. -/
def recover (m : Prog ε σ α) (h : ε → Option α) : Prog ε σ α := fun s =>
  match m s with
  | .ok a s' => .ok a s'
  | .error e s' =>
    match h e with
    | some a => .ok a s'
    | none => .error e s'

/-- A result that was computed. -/
def ofExcept {ε' : Type} (f : ε' → ε) (r : Except ε' α) : Prog ε σ α :=
  match r with
  | .ok a => pure a
  | .error e => throw (f e)

def wp (m : Prog ε σ α) (Q : α → σ → Prop) (R : ε → σ → Prop) (s : σ) : Prop :=
  match m s with
  | .ok a s' => Q a s'
  | .error e s' => R e s'

variable {m : Prog ε σ α} {f : α → Prog ε σ β} {Q Q' : α → σ → Prop} {R R' : ε → σ → Prop}
  {Q₂ : β → σ → Prop} {s s' : σ} {b : Bool} {e : ε} {o : Option α} {P : σ → Prop} {a : α}

/-- The rule of consequence. -/
lemma wp_mono (h : wp m Q R s) (hQ : ∀ a s', Q a s' → Q' a s') (hR : ∀ e s', R e s' → R' e s') :
    wp m Q' R' s := by
  rw [wp] at h ⊢
  cases hm : m s with
  | ok a s' => rw [hm] at h; exact hQ a s' h
  | error e s' => rw [hm] at h; exact hR e s' h

@[simp] lemma wp_pure (a : α) : wp (pure a : Prog ε σ α) Q R s ↔ Q a s := Iff.rfl

@[simp] lemma wp_throw (e : ε) : wp (throw e : Prog ε σ α) Q R s ↔ R e s := Iff.rfl

@[simp] lemma wp_get {Q : σ → σ → Prop} : wp (get : Prog ε σ σ) Q R s ↔ Q s s := Iff.rfl

@[simp] lemma wp_set {Q : PUnit → σ → Prop} (s' : σ) :
    wp (set s' : Prog ε σ PUnit) Q R s ↔ Q ⟨⟩ s' := Iff.rfl

@[simp] lemma wp_modify {Q : PUnit → σ → Prop} (g : σ → σ) :
    wp (modify g : Prog ε σ PUnit) Q R s ↔ Q ⟨⟩ (g s) := Iff.rfl

@[simp] lemma wp_bind :
    wp (m >>= f) Q₂ R s ↔ wp m (fun a s' => wp (f a) Q₂ R s') R s := by
  have hbind : (m >>= f) s = match m s with
      | .ok a s' => f a s'
      | .error e s' => .error e s' := rfl
  rw [wp, wp, hbind]
  cases m s <;> rfl

@[simp] lemma wp_check {Q : Unit → σ → Prop} :
    wp (check b e : Prog ε σ Unit) Q R s ↔ (b → Q () s) ∧ (¬b → R e s) := by
  cases b <;> simp [check]

@[simp] lemma wp_require :
    wp (require o e : Prog ε σ α) Q R s ↔ (∀ a, o = some a → Q a s) ∧ (o = none → R e s) := by
  cases o <;> simp [require]

@[simp] lemma wp_onSome {f : α → Prog ε σ Unit} {Q : Unit → σ → Prop} :
    wp (onSome o f) Q R s ↔ (∀ a, o = some a → wp (f a) Q R s) ∧ (o = none → Q () s) := by
  cases o <;> simp [onSome]

@[simp] lemma wp_whenever {m : Prog ε σ Unit} {Q : Unit → σ → Prop} :
    wp (whenever b m) Q R s ↔ (b → wp m Q R s) ∧ (¬b → Q () s) := by
  cases b <;> simp [whenever]

/-- What holds after a program whatever it did. -/
lemma wp_iff_after : wp m (fun _ => P) (fun _ => P) s ↔ P (m.after s) := by
  rw [wp, after]
  cases m s <;> rfl

@[simp] lemma wp_ignore {Q : Unit → σ → Prop} :
    wp (ignore m : Prog ε σ Unit) Q R s ↔ wp m (fun _ => Q ()) (fun _ => Q ()) s :=
  wp_iff_after.symm

lemma wp_finally {g : σ → σ} :
    wp (finally_ m g) Q R s ↔ wp m (fun a s' => Q a (g s')) (fun e s' => R e (g s')) s := by
  rw [wp, wp, finally_]
  cases m s <;> rfl

@[simp] lemma wp_mapFailure {g : ε → ε} :
    wp (mapFailure g m) Q R s ↔ wp m Q (fun e => R (g e)) s := by
  rw [wp, wp, mapFailure]
  cases m s <;> rfl

lemma wp_recover {h : ε → Option α} {E : ε → σ → Prop} (hm : wp m Q E s)
    (hok : ∀ e s' a, E e s' → h e = some a → Q a s')
    (herror : ∀ e s', E e s' → h e = none → R e s') : wp (recover m h) Q R s := by
  rw [wp] at hm ⊢
  rw [recover]
  cases hs : m s with
  | ok a s' =>
    rw [hs] at hm
    exact hm
  | error e s' =>
    rw [hs] at hm
    cases he : h e with
    | some a => simpa [he] using hok e s' a hm he
    | none => simpa [he] using herror e s' hm he

@[simp] lemma wp_ofExcept {ε' : Type} {g : ε' → ε} {r : Except ε' α} :
    wp (ofExcept g r : Prog ε σ α) Q R s ↔
      (∀ a, r = .ok a → Q a s) ∧ (∀ e, r = .error e → R (g e) s) := by
  cases r <;> simp [ofExcept]

lemma wp_ok (h : wp m Q R s) (hm : m s = .ok a s') : Q a s' := by
  rw [wp, hm] at h
  exact h

/-- The result of a program that cannot fail. -/
lemma wp_total (h : wp m Q (fun _ _ => False) s) : ∃ a s', m s = .ok a s' ∧ Q a s' := by
  rw [wp] at h
  cases hm : m s with
  | ok a s' => rw [hm] at h; exact ⟨a, s', rfl, h⟩
  | error e s' => rw [hm] at h; exact h.elim

lemma eq_ok_of_wp (h : wp m (fun b t => b = a ∧ t = s') (fun _ _ => False) s) : m s = .ok a s' := by
  obtain ⟨_, _, hm, rfl, rfl⟩ := wp_total h
  exact hm

lemma after_of_wp (h : wp m (fun _ => P) (fun _ _ => False) s) : P (m.after s) :=
  wp_iff_after.mp (wp_mono h (fun _ _ => id) fun _ _ => False.elim)

/-! ### What a program keeps -/

/-- Whether it returns or fails. -/
def Keeps (I : σ → Prop) (m : Prog ε σ α) : Prop := ∀ s, I s → wp m (fun _ => I) (fun _ => I) s

namespace Keeps

variable {I : σ → Prop}

lemma after (h : Keeps I m) (hs : I s) : I (m.after s) := wp_iff_after.mp (h s hs)

lemma bind (hm : Keeps I m) (hf : ∀ a, Keeps I (f a)) : Keeps I (m >>= f) := by
  intro s hs
  rw [wp_bind]
  exact wp_mono (hm s hs) (fun a s' hs' => hf a s' hs') (fun _ _ hs' => hs')

/-- The state that is read is the one the rest starts in. -/
lemma get_bind {f : σ → Prog ε σ β} (hf : ∀ s, I s → wp (f s) (fun _ => I) (fun _ => I) s) :
    Keeps I (get >>= f) := by
  intro s hs
  rw [wp_bind]
  exact hf s hs

lemma modify {g : σ → σ} (h : ∀ s, I s → I (g s)) : Keeps I (modify g : Prog ε σ PUnit) := h

lemma check : Keeps I (check b e : Prog ε σ Unit) := fun _ hs =>
  wp_check.mpr ⟨fun _ => hs, fun _ => hs⟩

lemma require : Keeps I (require o e : Prog ε σ α) := fun _ hs =>
  wp_require.mpr ⟨fun _ _ => hs, fun _ => hs⟩

lemma onSome {f : α → Prog ε σ Unit} (h : ∀ a, o = some a → Keeps I (f a)) :
    Keeps I (onSome o f) := fun s hs =>
  wp_onSome.mpr ⟨fun a ha => h a ha s hs, fun _ => hs⟩

lemma whenever {m : Prog ε σ Unit} (h : Keeps I m) : Keeps I (whenever b m) :=
  fun s hs => wp_whenever.mpr ⟨fun _ => h s hs, fun _ => hs⟩

lemma ignore (h : Keeps I m) : Keeps I m.ignore := fun s hs => wp_ignore.mpr (h s hs)

end Keeps

end Prog
