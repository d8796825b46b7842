import Mathlib.Data.List.AList
import Mathlib.Tactic
import RustDesk.Lib.Slots

/-!
# A file system

Names are entries of a table, files are numbered nodes: renaming moves an entry and leaves the
node, and a handle that is open goes on naming its node. A node may have several names. An
operation that the system refuses because of what is there returns `none`.
-/

/-- A file: its bytes, and when it was last modified. -/
structure Node where
  data : List UInt8
  mtime : ℕ
  deriving DecidableEq

inductive Entry where
  | file (ino : ℕ)
  | dir
  deriving DecidableEq

/-- Every file that has a name is there. -/
structure FileSystem (P : Type) [DecidableEq P] where
  entries : AList fun _ : P => Entry
  nodes : List Node
  valid : ∀ p i, entries.lookup p = some (.file i) → i < nodes.length

namespace FileSystem

variable {i : ℕ}

variable {P : Type} [DecidableEq P]

def empty : FileSystem P where
  entries := ∅
  nodes := []
  valid _ _ h := by
    rw [AList.lookup_empty] at h
    cases h

variable (fs : FileSystem P)

/-! ### Reading -/

def entry (p : P) : Option Entry := fs.entries.lookup p

def contains (p : P) : Bool := (fs.entry p).isSome

/-- The number of names of a file. -/
def links (i : ℕ) : ℕ := fs.entries.entries.countP fun e => e.2 = .file i

def data (i : ℕ) : Option (List UInt8) := fs.nodes[i]?.map (·.data)

def ino (p : P) : Option ℕ :=
  match fs.entry p with
  | some (.file i) => some i
  | _ => none

/-- The file of that name. -/
def node (p : P) : Option Node := (fs.ino p).bind fun i => fs.nodes[i]?

variable {fs}

lemma entry_of_ino {p : P} (h : fs.ino p = some i) : fs.entry p = some (.file i) := by
  rw [ino] at h
  split at h
  · cases h
    assumption
  · cases h

lemma ino_of_entry {p : P} (h : fs.entry p = some (.file i)) : fs.ino p = some i := by
  rw [ino, h]

lemma data_of_ino {p : P} (h : fs.ino p = some i) : ∃ bytes, fs.data i = some bytes := by
  rw [data, List.getElem?_eq_getElem (fs.valid p i (entry_of_ino h))]
  exact ⟨_, rfl⟩

variable (fs)

/-! ### Writing -/

/-- The table without a name. -/
def erase (p : P) : FileSystem P where
  entries := fs.entries.erase p
  nodes := fs.nodes
  valid q i h := by
    by_cases hq : q = p
    · subst hq
      rw [AList.lookup_erase] at h
      cases h
    · rw [AList.lookup_erase_ne hq] at h
      exact fs.valid q i h

/-- A name for what is there. -/
def insert (p : P) (e : Entry) (he : ∀ i, e = .file i → i < fs.nodes.length) : FileSystem P where
  entries := fs.entries.insert p e
  nodes := fs.nodes
  valid q i h := by
    by_cases hq : q = p
    · subst hq
      rw [AList.lookup_insert] at h
      exact he i (Option.some.inj h)
    · rw [AList.lookup_insert_ne hq] at h
      exact fs.valid q i h

/-- Change the node of a file. -/
def modify (i : ℕ) (f : Node → Node) : FileSystem P where
  entries := fs.entries
  nodes := fs.nodes.modify i f
  valid p j h := by
    rw [List.length_modify]
    exact fs.valid p j h

/-- A new, empty file under that name. -/
def addFile (p : P) : FileSystem P where
  entries := fs.entries.insert p (.file fs.nodes.length)
  nodes := fs.nodes ++ [⟨[], 0⟩]
  valid q i h := by
    rw [List.length_append]
    by_cases hq : q = p
    · subst hq
      rw [AList.lookup_insert] at h
      cases h
      exact Nat.lt_add_one _
    · rw [AList.lookup_insert_ne hq] at h
      exact Nat.lt_add_right _ (fs.valid q i h)

/-- Open for writing: a file that is there is cut to nothing, otherwise one is made. -/
def create (p : P) : Option (ℕ × FileSystem P) :=
  match fs.entry p with
  | some (.file i) => some (i, fs.modify i fun n => { n with data := [] })
  | some .dir => none
  | none => some (fs.nodes.length, fs.addFile p)

/-- The same, when there must be nothing under the name. -/
def createNew (p : P) : Option (ℕ × FileSystem P) :=
  match fs.entry p with
  | none => some (fs.nodes.length, fs.addFile p)
  | some _ => none

def remove (p : P) : Option (FileSystem P) :=
  match fs.entry p with
  | some (.file _) => some (fs.erase p)
  | _ => none

/-- The file gets another name instead of its own; a file that had it loses it. Directories stay
where they are. -/
def rename (a b : P) : Option (FileSystem P) :=
  match h : fs.ino a with
  | none => none
  | some i =>
    if fs.entry b = some .dir then none
    else some ((fs.erase a).insert b (.file i) fun j hj => by
      cases hj
      exact fs.valid a i (entry_of_ino h))

/-- Bytes with others written over them from a position on; a gap is filled with zeros. -/
def overwrite (old : List UInt8) (pos : ℕ) (new : List UInt8) : List UInt8 :=
  old.take pos ++ List.replicate (pos - old.length) 0 ++ new ++ old.drop (pos + new.length)

/-- The file with other bytes in it. -/
def writeAt (i pos : ℕ) (bytes : List UInt8) : FileSystem P :=
  fs.modify i fun n => { n with data := overwrite n.data pos bytes }

def setMtime (p : P) (mtime : ℕ) : Option (FileSystem P) :=
  (fs.ino p).map fun i => fs.modify i fun n => { n with mtime }

/-! ### Names after an operation -/

section Names

variable {fs} {fs' : FileSystem P} {p q a b : P} {mtime : ℕ}

lemma entry_empty (p : P) : (empty : FileSystem P).entry p = none := AList.lookup_empty p

lemma entry_erase_self (p : P) : (fs.erase p).entry p = none := AList.lookup_erase p fs.entries

lemma entry_erase_ne (h : q ≠ p) : (fs.erase p).entry q = fs.entry q := AList.lookup_erase_ne h

lemma entry_insert_self (p : P) (e : Entry) (he : ∀ i, e = .file i → i < fs.nodes.length) :
    (fs.insert p e he).entry p = some e := AList.lookup_insert fs.entries

lemma entry_insert_ne {e : Entry} {he : ∀ i, e = .file i → i < fs.nodes.length} (h : q ≠ p) :
    (fs.insert p e he).entry q = fs.entry q := AList.lookup_insert_ne h

lemma entry_addFile_self (p : P) : (fs.addFile p).entry p = some (.file fs.nodes.length) :=
  AList.lookup_insert fs.entries

lemma entry_addFile_ne (h : q ≠ p) : (fs.addFile p).entry q = fs.entry q :=
  AList.lookup_insert_ne h

@[simp] lemma entry_writeAt (i pos : ℕ) (bytes : List UInt8) :
    (fs.writeAt i pos bytes).entry = fs.entry := rfl

/-- A name is gone, and nothing else has changed. -/
structure Lost (p : P) (fs fs' : FileSystem P) : Prop where
  gone : fs'.entry p = none
  other : ∀ q, q ≠ p → fs'.entry q = fs.entry q
  nodes : fs'.nodes = fs.nodes

lemma lost_erase (p : P) : Lost p fs (fs.erase p) :=
  ⟨entry_erase_self p, fun _ hq => entry_erase_ne hq, rfl⟩

lemma lost_of_none (h : fs.entry p = none) : Lost p fs fs := ⟨h, fun _ _ => rfl, rfl⟩

lemma remove_eq_some (h : fs.remove p = some fs') :
    (∃ i, fs.entry p = some (.file i)) ∧ fs' = fs.erase p := by
  rw [remove] at h
  split at h
  · cases h
    exact ⟨⟨_, by assumption⟩, rfl⟩
  · cases h

lemma remove_eq_none (h : fs.remove p = none) : ∀ i, fs.entry p ≠ some (.file i) := by
  intro i hentry
  rw [remove, hentry] at h
  cases h

lemma createNew_eq_some (h : fs.createNew p = some (i, fs')) :
    fs.entry p = none ∧ i = fs.nodes.length ∧ fs' = fs.addFile p := by
  rw [createNew] at h
  split at h
  · cases h
    exact ⟨by assumption, rfl, rfl⟩
  · cases h

lemma create_eq_some (h : fs.create p = some (i, fs')) :
    fs.entry p = some (.file i) ∧ fs' = fs.modify i (fun n => { n with data := [] }) ∨
      fs.entry p = none ∧ i = fs.nodes.length ∧ fs' = fs.addFile p := by
  rw [create] at h
  split at h
  · cases h
    exact .inl ⟨by assumption, rfl⟩
  · cases h
  · cases h
    exact .inr ⟨by assumption, rfl, rfl⟩

/-- The name is there afterwards, other names are as they were. -/
lemma create_entry (h : fs.create p = some (i, fs')) :
    fs'.entry p = some (.file i) ∧ ∀ q, q ≠ p → fs'.entry q = fs.entry q := by
  rcases create_eq_some h with ⟨hentry, rfl⟩ | ⟨-, rfl, rfl⟩
  · exact ⟨hentry, fun q _ => rfl⟩
  · exact ⟨entry_addFile_self p, fun q hq => entry_addFile_ne hq⟩

lemma rename_eq_some (h : fs.rename a b = some fs') :
    ∃ i, fs.entry a = some (.file i) ∧ fs.entry b ≠ some .dir ∧ fs'.nodes = fs.nodes ∧
      fs'.entry b = some (.file i) ∧ (a ≠ b → fs'.entry a = none) ∧
      ∀ q, q ≠ a → q ≠ b → fs'.entry q = fs.entry q := by
  rw [rename] at h
  split at h
  · cases h
  · rename_i i hino
    split_ifs at h with hdir
    cases h
    refine ⟨i, entry_of_ino hino, hdir, rfl, entry_insert_self _ _ _, ?_, ?_⟩
    · intro hab
      rw [entry_insert_ne hab, entry_erase_self]
    · intro q ha hb
      rw [entry_insert_ne hb, entry_erase_ne ha]

lemma rename_eq_none (h : fs.rename a b = none) : fs.ino a = none ∨ fs.entry b = some .dir := by
  rw [rename] at h
  split at h
  · exact .inl (by assumption)
  · split_ifs at h with hdir
    exact .inr hdir

lemma setMtime_eq_some (h : fs.setMtime p mtime = some fs') :
    ∃ i, fs.entry p = some (.file i) ∧ fs' = fs.modify i fun n => { n with mtime } := by
  obtain ⟨i, hino, rfl⟩ := Option.map_eq_some_iff.mp h
  exact ⟨i, entry_of_ino hino, rfl⟩

/-! ### Files with one name -/

/-- The file has that name and no other. -/
def Sole (fs : FileSystem P) (p : P) (i : ℕ) : Prop :=
  fs.entry p = some (.file i) ∧ ∀ q, fs.entry q = some (.file i) → q = p

lemma lt_of_entry (h : fs.entry p = some (.file i)) : i < fs.nodes.length := fs.valid p i h

lemma sole_of_links (hlinks : fs.links i = 1) (h : fs.entry p = some (.file i)) : fs.Sole p i := by
  refine ⟨h, fun q hq => ?_⟩
  -- two entries of the table that count are one
  have hmem : ∀ r, fs.entry r = some (.file i) → (⟨r, .file i⟩ : Sigma fun _ : P => Entry) ∈
      fs.entries.entries.filter fun e => e.2 = .file i := by
    intro r hr
    exact List.mem_filter.mpr ⟨AList.mem_lookup_iff.mp hr, decide_eq_true rfl⟩
  rw [links, List.countP_eq_length_filter, List.length_eq_one_iff] at hlinks
  obtain ⟨e, he⟩ := hlinks
  have hp := hmem p h
  have hq := hmem q hq
  rw [he, List.mem_singleton] at hp hq
  exact congrArg Sigma.fst (hq.trans hp.symm)

/-- A new file has the name it was made under. -/
lemma sole_addFile (p : P) : (fs.addFile p).Sole p fs.nodes.length := by
  refine ⟨entry_addFile_self p, fun q hq => ?_⟩
  by_contra hne
  rw [entry_addFile_ne hne] at hq
  exact lt_irrefl _ (lt_of_entry hq)

lemma Sole.lost (h : fs.Sole p i) (hlost : Lost q fs fs') (hq : p ≠ q) : fs'.Sole p i := by
  refine ⟨(hlost.other p hq).trans h.1, fun r hr => ?_⟩
  by_cases hrq : r = q
  · rw [hrq, hlost.gone] at hr
    cases hr
  · rw [hlost.other r hrq] at hr
    exact h.2 r hr

lemma Sole.addFile (h : fs.Sole p i) (hq : p ≠ q) : (fs.addFile q).Sole p i := by
  refine ⟨(entry_addFile_ne hq).trans h.1, fun r hr => ?_⟩
  by_cases hrq : r = q
  · rw [hrq, entry_addFile_self] at hr
    cases hr
    exact absurd (lt_of_entry h.1) (lt_irrefl _)
  · rw [entry_addFile_ne hrq] at hr
    exact h.2 r hr

lemma Sole.rename (h : fs.Sole a i) (hrename : fs.rename a b = some fs') : fs'.Sole b i := by
  obtain ⟨j, hj, -, -, hnew, hgone, hother⟩ := rename_eq_some hrename
  cases hj.symm.trans h.1
  refine ⟨hnew, fun q hq => ?_⟩
  by_contra hne
  by_cases hqa : q = a
  · subst hqa
    cases (hgone hne).symm.trans hq
  · rw [hother q hqa hne] at hq
    exact hqa (h.2 q hq)

/-! ### What is left alone -/

/-- Every file with a name that is not in `A` is there under it, as it was. -/
def Untouched (A : P → Prop) (fs fs' : FileSystem P) : Prop :=
  ∀ p i, fs.entry p = some (.file i) → ¬A p →
    fs'.entry p = some (.file i) ∧ fs'.nodes[i]? = fs.nodes[i]?

namespace Untouched

variable {A : P → Prop} {fs'' : FileSystem P}

lemma refl (fs : FileSystem P) : Untouched A fs fs := fun _ _ h _ => ⟨h, rfl⟩

lemma trans (h : Untouched A fs fs') (h' : Untouched A fs' fs'') : Untouched A fs fs'' := by
  intro p i hp hA
  obtain ⟨hp', hnode⟩ := h p i hp hA
  obtain ⟨hp'', hnode'⟩ := h' p i hp' hA
  exact ⟨hp'', hnode'.trans hnode⟩

lemma lost (hlost : Lost q fs fs') (hA : A q) : Untouched A fs fs' := by
  intro p i hp hnot
  have hpq : p ≠ q := fun heq => hnot (heq ▸ hA)
  exact ⟨(hlost.other p hpq).trans hp, by rw [hlost.nodes]⟩

lemma addFile (h : fs.entry q = none) : Untouched A fs (fs.addFile q) := by
  intro p i hp _
  have hpq : p ≠ q := by
    rintro rfl
    cases h.symm.trans hp
  exact ⟨(entry_addFile_ne hpq).trans hp, List.getElem?_append_left (lt_of_entry hp)⟩

/-- A file may be changed if all the names it had are in `A`. -/
lemma modify (h : Untouched A fs fs') {f : Node → Node}
    (hnames : ∀ p, fs.entry p = some (.file i) → A p) : Untouched A fs (fs'.modify i f) := by
  intro p j hp hA
  obtain ⟨hp', hnode⟩ := h p j hp hA
  have hij : i ≠ j := by
    rintro rfl
    exact hA (hnames p hp)
  refine ⟨hp', ?_⟩
  rw [← hnode]
  exact List.getElem?_modify_ne f fs'.nodes hij

lemma rename (h : fs.rename a b = some fs') (ha : A a)
    (hb : ∀ i, fs.entry b = some (.file i) → A b) : Untouched A fs fs' := by
  obtain ⟨-, -, -, hnodes, -, -, hother⟩ := rename_eq_some h
  intro p i hp hA
  have hpa : p ≠ a := fun heq => hA (heq ▸ ha)
  have hpb : p ≠ b := by
    rintro rfl
    exact hA (hb i hp)
  exact ⟨(hother p hpa hpb).trans hp, by rw [hnodes]⟩

end Untouched

/-- Nothing has changed outside `A`: no name was added or lost there, and no file with a name there
was written. -/
structure SameOutside (A : P → Prop) (fs fs' : FileSystem P) : Prop where
  entry : ∀ p, ¬A p → fs'.entry p = fs.entry p
  nodes : ∀ p i, ¬A p → fs.entry p = some (.file i) → fs'.nodes[i]? = fs.nodes[i]?

namespace SameOutside

variable {A : P → Prop} {fs'' : FileSystem P}

lemma refl (fs : FileSystem P) : SameOutside A fs fs := ⟨fun _ _ => rfl, fun _ _ _ _ => rfl⟩

lemma trans (h : SameOutside A fs fs') (h' : SameOutside A fs' fs'') : SameOutside A fs fs'' := by
  refine ⟨fun p hA => (h'.entry p hA).trans (h.entry p hA), fun p i hA hp => ?_⟩
  have hp' : fs'.entry p = some (.file i) := (h.entry p hA).trans hp
  exact (h'.nodes p i hA hp').trans (h.nodes p i hA hp)

lemma mono {B : P → Prop} (h : SameOutside A fs fs') (hAB : ∀ p, A p → B p) :
    SameOutside B fs fs' :=
  ⟨fun p hB => h.entry p fun hA => hB (hAB p hA), fun p i hB => h.nodes p i fun hA => hB (hAB p hA)⟩

/-- A file outside has the bytes it had. -/
lemma data (h : SameOutside A fs fs') (hp : fs.entry p = some (.file i)) (hnot : ¬A p) :
    fs'.data i = fs.data i := by
  rw [FileSystem.data, FileSystem.data, h.nodes p i hnot hp]

lemma lost (hlost : Lost q fs fs') (hA : A q) : SameOutside A fs fs' := by
  refine ⟨fun p hnot => hlost.other p fun heq => hnot (heq ▸ hA), fun p i _ _ => ?_⟩
  rw [hlost.nodes]

lemma addFile (hA : A q) : SameOutside A fs (fs.addFile q) := by
  refine ⟨fun p hnot => entry_addFile_ne fun heq => hnot (heq ▸ hA), fun p i _ hp => ?_⟩
  exact List.getElem?_append_left (lt_of_entry hp)

lemma modify {f : Node → Node} (hnames : ∀ p, fs.entry p = some (.file i) → A p) :
    SameOutside A fs (fs.modify i f) := by
  refine ⟨fun _ _ => rfl, fun p j hnot hp => ?_⟩
  have hij : i ≠ j := by
    rintro rfl
    exact hnot (hnames p hp)
  exact List.getElem?_modify_ne f fs.nodes hij

lemma rename (h : fs.rename a b = some fs') (ha : A a) (hb : A b) : SameOutside A fs fs' := by
  obtain ⟨-, -, -, hnodes, -, -, hother⟩ := rename_eq_some h
  refine ⟨fun p hnot => hother p ?_ ?_, fun p i _ _ => by rw [hnodes]⟩
  · exact fun heq => hnot (heq ▸ ha)
  · exact fun heq => hnot (heq ▸ hb)

end SameOutside

/-! ### Contents -/

/-- Bytes written at the end. -/
lemma data_writeAt {old new : List UInt8} (h : fs.data i = some old) :
    (fs.writeAt i old.length new).data i = some (old ++ new) := by
  obtain ⟨node, hnode, rfl⟩ := Option.map_eq_some_iff.mp h
  have hget : (fs.writeAt i node.data.length new).nodes[i]? =
      some { node with data := overwrite node.data node.data.length new } := by
    rw [writeAt, FileSystem.modify, List.getElem?_modify_eq, hnode]
    rfl
  rw [data, hget, Option.map_some, overwrite]
  simp

lemma data_congr (h : fs'.nodes = fs.nodes) : fs'.data i = fs.data i := by rw [data, data, h]

lemma data_addFile : (fs.addFile p).data fs.nodes.length = some [] := by
  rw [data, FileSystem.addFile, List.getElem?_concat_length]
  rfl

/-- The time of a file is no part of its contents. -/
lemma data_setMtime (h : fs.setMtime p mtime = some fs') : fs'.data i = fs.data i := by
  obtain ⟨j, -, rfl⟩ := setMtime_eq_some h
  rw [data, data, FileSystem.modify, List.getElem?_modify]
  cases fs.nodes[i]? with
  | none => rfl
  | some node => split_ifs <;> rfl

end Names

end FileSystem
