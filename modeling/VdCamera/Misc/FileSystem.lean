import Mathlib.Data.List.Basic
import Mathlib.Data.List.Induction
import Mathlib.Logic.Function.Basic
import Mathlib.Tactic.Common
import VdCamera.Misc.CString

/-!
# Trees of directories

A tree of directories and plain files, given by what stands at the end of a list of names. Making a
directory fills one place, and what has been made of a tree is what has changed in it.
-/

namespace VdCamera.Misc

inductive Kind
  | dir
  | file
  deriving DecidableEq, Repr

/-- What the names from the root on lead to. -/
structure DirTree (Name : Type) where
  node : List Name → Option Kind
  root : node [] = some .dir
  /-- Something stands in directories only. -/
  parent : ∀ p n, (node (p ++ [n])).isSome = true → node p = some .dir

namespace DirTree

variable {Name : Type} {t t' t'' : DirTree Name} {p q : List Name} {n : Name}

def isDir (t : DirTree Name) (p : List Name) : Bool := t.node p = some .dir

theorem isDir_iff : t.isDir p = true ↔ t.node p = some .dir := by
  simp [isDir]

/-- Below what is no directory there is nothing. -/
theorem node_append_eq_none (h : t.node p ≠ some .dir) (n : Name) : t.node (p ++ [n]) = none := by
  cases hn : t.node (p ++ [n]) with
  | none => rfl
  | some k => exact absurd (t.parent p n (by rw [hn]; rfl)) h

theorem node_append_of_none (h : t.node p = none) (q : List Name) : t.node (p ++ q) = none := by
  induction q using List.reverseRecOn with
  | nil => rw [List.append_nil, h]
  | append_singleton q n ih =>
    rw [← List.append_assoc]
    exact node_append_eq_none (by rw [ih]; exact Option.some_ne_none _ ∘ Eq.symm) n

/-- `t'` is `t` and some directories that were missing, each at one of the places `P`. -/
def Made (P : List Name → Prop) (t t' : DirTree Name) : Prop :=
  ∀ p, t'.node p = t.node p ∨ (t.node p = none ∧ t'.node p = some .dir ∧ P p)

theorem Made.refl (P : List Name → Prop) (t : DirTree Name) : Made P t t := fun _ => .inl rfl

/-! ## Making a directory -/

variable [DecidableEq Name]

/-- A new directory, in one that is there and has nothing of its name. -/
def mkdir (t : DirTree Name) (p : List Name) (n : Name) : Option (DirTree Name) :=
  if h : t.node p = some .dir ∧ t.node (p ++ [n]) = none then
    some {
      node := Function.update t.node (p ++ [n]) (some .dir)
      root := by
        rw [Function.update_of_ne (by simp)]
        exact t.root
      parent := by
        intro q m hm
        by_cases hq : q = p ++ [n]
        · rw [hq, Function.update_self]
        · rw [Function.update_of_ne hq]
          by_cases hqm : q ++ [m] = p ++ [n]
          · rw [(List.append_inj' hqm rfl).1]
            exact h.1
          · rw [Function.update_of_ne hqm] at hm
            exact t.parent q m hm }
  else none

theorem mkdir_isSome (h : t.node p = some .dir) (hn : t.node (p ++ [n]) = none) :
    (t.mkdir p n).isSome = true := by
  simp [mkdir, h, hn]

theorem mkdir_eq_some (h : t.mkdir p n = some t') : t.node (p ++ [n]) = none
    ∧ t'.node (p ++ [n]) = some .dir ∧ ∀ q, q ≠ p ++ [n] → t'.node q = t.node q := by
  unfold mkdir at h
  split at h
  · next hp =>
    cases h
    exact ⟨hp.2, Function.update_self .., fun q hq => Function.update_of_ne hq ..⟩
  · cases h

/-- What was a directory still is. -/
theorem isDir_mkdir (h : t.mkdir p n = some t') (hq : t.isDir q = true) : t'.isDir q = true := by
  obtain ⟨_, hnew, hrest⟩ := mkdir_eq_some h
  rw [isDir_iff] at hq ⊢
  by_cases hqp : q = p ++ [n]
  · rw [hqp, hnew]
  · rw [hrest q hqp, hq]

theorem Made.mkdir {P : List Name → Prop} (h : Made P t t') (hp : P (p ++ [n]))
    (hmk : t'.mkdir p n = some t'') : Made P t t'' := by
  obtain ⟨hnone, hnew, hrest⟩ := mkdir_eq_some hmk
  intro q
  by_cases hq : q = p ++ [n]
  · subst hq
    rcases h (p ++ [n]) with hsame | ⟨_, hdir, _⟩
    · exact .inr ⟨by rw [← hsame, hnone], hnew, hp⟩
    · rw [hnone] at hdir
      cases hdir
  · rw [hrest q hq]
    exact h q

end DirTree

/-! ## File systems

What a program sees of a file system through path strings: where a path leads, what is there, and making
a directory. How the way to a place is found (working directory, links, permissions) is left to the file
system; making a directory fills one place that was empty and moves no path that led somewhere.
-/

structure FileSystem (σ : Type) where
  Place : Type
  /-- What is at a place; whatever is no directory counts as a file. -/
  kind : σ → Place → Option Kind
  /-- The place that a path leads to, whether something is there or not. -/
  lookup : σ → List UInt8 → Option Place
  mkdir : σ → List UInt8 → Option σ
  mkdir_new : ∀ {s s' p}, mkdir s p = some s' → ∃ q, lookup s' p = some q ∧ kind s q = none ∧
    kind s' q = some .dir ∧ ∀ q', q' ≠ q → kind s' q' = kind s q'
  lookup_mkdir : ∀ {s s' p r q}, mkdir s p = some s' → lookup s r = some q → kind s q ≠ none →
    lookup s' r = some q

namespace FileSystem

variable {σ : Type} (fs : FileSystem σ)

/-- `access(p, F_OK) == 0`. -/
def access (s : σ) (p : List UInt8) : Bool := ((fs.lookup s p).bind (fs.kind s)).isSome

/-- `stat` succeeds and says that `p` is a directory. -/
def isDir (s : σ) (p : List UInt8) : Bool := (fs.lookup s p).bind (fs.kind s) == some .dir

/-- From `s` to `s'` only directories are made, at places that were empty and to which paths of `P`
lead. -/
def Made (P : List UInt8 → Prop) (s s' : σ) : Prop :=
  ∀ q, fs.kind s' q = fs.kind s q ∨
    (fs.kind s q = none ∧ fs.kind s' q = some .dir ∧ ∃ p, P p ∧ fs.lookup s' p = some q)

variable {fs} {s s' s'' : σ} {p r : List UInt8} {P : List UInt8 → Prop}

theorem isDir_iff : fs.isDir s p = true ↔ ∃ q, fs.lookup s p = some q ∧ fs.kind s q = some .dir := by
  rw [isDir, beq_iff_eq, Option.bind_eq_some_iff]

theorem isDir_of_not_access (h : fs.access s p = false) : fs.isDir s p = false := by
  unfold access at h
  unfold isDir
  rw [Option.isSome_eq_false_iff, Option.isNone_iff_eq_none] at h
  rw [h]
  rfl

theorem isDir_mkdir_self (h : fs.mkdir s p = some s') : fs.isDir s' p = true := by
  obtain ⟨q, hq, -, hdir, -⟩ := fs.mkdir_new h
  exact isDir_iff.mpr ⟨q, hq, hdir⟩

/-- What was a directory still is. -/
theorem isDir_mkdir (h : fs.mkdir s p = some s') (hr : fs.isDir s r = true) : fs.isDir s' r = true := by
  obtain ⟨q, hq, hdir⟩ := isDir_iff.mp hr
  obtain ⟨q', -, hnone, -, hrest⟩ := fs.mkdir_new h
  have hne : q ≠ q' := by
    rintro rfl
    rw [hdir] at hnone
    cases hnone
  refine isDir_iff.mpr ⟨q, fs.lookup_mkdir h hq (by rw [hdir]; exact Option.some_ne_none _), ?_⟩
  rw [hrest q hne, hdir]

theorem Made.refl (P : List UInt8 → Prop) (s : σ) : fs.Made P s s := fun _ => .inl rfl

theorem Made.mkdir (h : fs.Made P s s') (hp : P p) (hmk : fs.mkdir s' p = some s'') :
    fs.Made P s s'' := by
  obtain ⟨q, hq, hnone, hdir, hrest⟩ := fs.mkdir_new hmk
  intro q'
  by_cases hqq : q' = q
  · subst hqq
    rcases h q' with hsame | ⟨-, hdir', -⟩
    · exact .inr ⟨by rw [← hsame, hnone], hdir, p, hp, hq⟩
    · rw [hnone] at hdir'
      cases hdir'
  · rw [hrest q' hqq]
    rcases h q' with hsame | ⟨hnone', hdir', r, hr, hlook⟩
    · exact .inl hsame
    · exact .inr ⟨hnone', hdir', r, hr,
        fs.lookup_mkdir hmk hlook (by rw [hdir']; exact Option.some_ne_none _)⟩

end FileSystem

/-! ## A tree as a file system -/

/-- The place of a path from the root on: a slash at the end asks for a directory. -/
def treeLookup (t : DirTree (List UInt8)) (p : List UInt8) : Option (List (List UInt8)) :=
  if p = [] ∨ (p.getLast? = some 47 ∧ t.node (tokens 47 p) = some .file) then none
  else some (tokens 47 p)

def treeMkdir (t : DirTree (List UInt8)) (p : List UInt8) : Option (DirTree (List UInt8)) :=
  match (tokens 47 p).getLast? with
  | none => none
  | some n => t.mkdir (tokens 47 p).dropLast n

theorem treeMkdir_some {t t' : DirTree (List UInt8)} {p : List UInt8} (h : treeMkdir t p = some t') :
    t.node (tokens 47 p) = none ∧ t'.node (tokens 47 p) = some .dir ∧
      ∀ q, q ≠ tokens 47 p → t'.node q = t.node q := by
  unfold treeMkdir at h
  cases hlast : (tokens 47 p).getLast? with
  | none =>
    rw [hlast] at h
    cases h
  | some n =>
    rw [hlast] at h
    have hsplit := List.dropLast_append_getLast? n hlast
    have hmk := DirTree.mkdir_eq_some h
    rwa [hsplit] at hmk

/-- A tree of directories and plain files, without links; names are just names. -/
def treeSystem : FileSystem (DirTree (List UInt8)) where
  Place := List (List UInt8)
  kind t q := t.node q
  lookup := treeLookup
  mkdir := treeMkdir
  mkdir_new := by
    intro t t' p h
    obtain ⟨hnone, hdir, hrest⟩ := treeMkdir_some h
    refine ⟨tokens 47 p, ?_, hnone, hdir, hrest⟩
    have hp : p ≠ [] := by
      rintro rfl
      cases h
    unfold treeLookup
    rw [if_neg (by simp [hp, hdir])]
  lookup_mkdir := by
    intro t t' p r q h hlook hq
    obtain ⟨hnone, hdir, hrest⟩ := treeMkdir_some h
    unfold treeLookup at hlook ⊢
    split at hlook
    · cases hlook
    · rename_i hr
      cases hlook
      have hne : tokens 47 r ≠ tokens 47 p := fun heq => hq (by rw [heq, hnone])
      rw [hrest _ hne, if_neg hr]

end VdCamera.Misc
