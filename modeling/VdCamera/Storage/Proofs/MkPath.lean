import VdCamera.Storage.MkPath

/-!
# What `mkpath` makes

The loop goes over the prefixes of the path, shortest first: all in front of the current one are
directories, and it stops at the first that is none and cannot be made.
-/

namespace VdCamera.Storage

open Misc

variable {σ : Type} {fs : FileSystem σ} {st st' : σ} {path u v s s' before taken : List UInt8} {ret : Int}
  {fuel : Nat}

/-! ## The prefixes of a path -/

/-- Between `u` and `v` ends one of the prefixes that slashes separate: `v` is empty, or the slashes
behind a name are over. -/
def AtCut (u v : List UInt8) : Prop := v = [] ∨ (u.getLast? = some 47 ∧ v.head? ≠ some 47)

/-- `u` is one of the prefixes of the path. -/
def IsSlashPrefix (path u : List UInt8) : Prop := ∃ v, path = u ++ v ∧ AtCut u v

theorem skipSlashes_spec (s : List UInt8) : s = (skipSlashes s).1 ++ (skipSlashes s).2 ∧
    (∀ c ∈ (skipSlashes s).1, c = 47) ∧ (skipSlashes s).2.head? ≠ some 47 := by
  induction s with
  | nil => exact ⟨rfl, fun c hc => absurd hc List.not_mem_nil, by simp [skipSlashes]⟩
  | cons c s ih =>
    obtain ⟨happ, hall, hhead⟩ := ih
    unfold skipSlashes
    by_cases hc : c = 47
    · rw [if_pos hc]
      exact ⟨by rw [List.cons_append, ← happ], List.forall_mem_cons.mpr ⟨hc, hall⟩, hhead⟩
    · rw [if_neg hc]
      refine ⟨rfl, fun c hc => absurd hc List.not_mem_nil, ?_⟩
      rw [List.head?_cons, Ne, Option.some.injEq]
      exact hc

/-- The pieces of `nextCut` make up its argument. -/
theorem nextCut_append (s : List UInt8) : (nextCut s).1 ++ (nextCut s).2 = s := by
  induction s with
  | nil => rfl
  | cons c s ih =>
    unfold nextCut
    split
    · exact congrArg (c :: ·) (skipSlashes_spec s).1.symm
    · exact congrArg (c :: ·) ih

theorem nextCut_ne_nil (h : s ≠ []) : (nextCut s).1 ≠ [] := by
  cases s with
  | nil => exact absurd rfl h
  | cons c s =>
    unfold nextCut
    split
    · exact List.cons_ne_nil _ _
    · exact List.cons_ne_nil _ _

theorem getLast?_append_all {l : List UInt8} (h : ∀ c ∈ l, c = 47) (hu : u.getLast? = some 47) :
    (u ++ l).getLast? = some 47 := by
  rw [List.getLast?_append]
  cases hl : l.getLast? with
  | none => rw [hu]; rfl
  | some c => rw [h c (List.mem_of_getLast? hl)]; rfl

/-- `nextCut` ends at a cut. -/
theorem atCut_nextCut (before s : List UInt8) : AtCut (before ++ (nextCut s).1) (nextCut s).2 := by
  induction s generalizing before with
  | nil => exact .inl rfl
  | cons c s ih =>
    unfold nextCut
    by_cases hc : c = 47
    · rw [if_pos hc]
      obtain ⟨-, hall, hhead⟩ := skipSlashes_spec s
      right
      refine ⟨?_, hhead⟩
      show (before ++ c :: (skipSlashes s).1).getLast? = some 47
      rw [List.append_cons]
      exact getLast?_append_all hall (by rw [List.getLast?_concat, hc])
    · rw [if_neg hc]
      show AtCut (before ++ c :: (nextCut s).1) (nextCut s).2
      rw [List.append_cons]
      exact ih (before ++ [c])

/-- There is no cut on the way. -/
theorem not_atCut (htaken : (nextCut s).1 = u ++ v) (hu : u ≠ []) (hv : v ≠ []) (before : List UInt8) :
    ¬ AtCut (before ++ u) (v ++ (nextCut s).2) := by
  rintro (hnil | ⟨hlast, hhead⟩)
  · exact hv (List.append_eq_nil_iff.mp hnil).1
  · induction s generalizing before u with
    | nil =>
      have := List.append_eq_nil_iff.mp htaken.symm
      exact hu this.1
    | cons c s ih =>
      obtain ⟨c', u, rfl⟩ := List.exists_cons_of_ne_nil hu
      unfold nextCut at htaken hhead
      by_cases hc : c = 47
      · rw [if_pos hc] at htaken hhead
        obtain ⟨-, hall, -⟩ := skipSlashes_spec s
        have hrest : (skipSlashes s).1 = u ++ v := (List.cons.inj htaken).2
        obtain ⟨c'', v, rfl⟩ := List.exists_cons_of_ne_nil hv
        have hslash := hall c'' (by rw [hrest]; exact List.mem_append_right _ List.mem_cons_self)
        exact hhead (by rw [List.cons_append, List.head?_cons, hslash])
      · rw [if_neg hc] at htaken hhead
        obtain ⟨hcc, hrest⟩ := List.cons.inj htaken
        rw [← hcc, List.append_cons] at hlast
        by_cases hu' : u = []
        · rw [hu', List.append_nil, List.getLast?_concat, Option.some.injEq] at hlast
          exact hc hlast
        · exact ih hrest hu' (before ++ [c]) hlast hhead

/-- From one cut to the next there is none. -/
theorem length_of_atCut {p : List UInt8} (hp : p = before ++ s) (huv : p = u ++ v) (hcut : AtCut u v)
    (hlen : (nextCut s).2.length < v.length) : s.length ≤ v.length := by
  by_contra hlt
  have hsplit := nextCut_append s
  have hu : before <+: u := by
    apply List.prefix_of_prefix_length_le ⟨s, hp.symm⟩ ⟨v, huv.symm⟩
    have h := congrArg List.length (hp.symm.trans huv)
    rw [List.length_append, List.length_append] at h
    omega
  obtain ⟨a, rfl⟩ := hu
  have hs : s = a ++ v := by
    rw [hp, List.append_assoc] at huv
    exact List.append_cancel_left huv
  have hv : (nextCut s).2 <:+ v := by
    apply List.suffix_of_suffix_length_le ⟨_, hsplit⟩ ⟨a, hs.symm⟩
    omega
  obtain ⟨b, rfl⟩ := hv
  have htaken : (nextCut s).1 = a ++ b := by
    have h := hsplit.trans hs
    rw [← List.append_assoc] at h
    exact List.append_cancel_right h
  have ha : a ≠ [] := by
    rintro rfl
    have h := congrArg List.length hs
    rw [List.nil_append] at h
    omega
  have hb : b ≠ [] := by
    rintro rfl
    rw [List.nil_append] at hlen
    omega
  exact not_atCut htaken ha hb before hcut

/-! ## The loop -/

/-- The prefixes in front of the next cut are directories. -/
def Checked (fs : FileSystem σ) (path s : List UInt8) (st : σ) : Prop :=
  ∀ u v, path = u ++ v → AtCut u v → (nextCut s).2.length < v.length → fs.isDir st u = true

theorem checked_init (fs : FileSystem σ) (path : List UInt8) (st : σ) : Checked fs path path st := by
  intro u v huv hcut hlen
  have hpath : path = [] ++ path := rfl
  have hle := length_of_atCut hpath huv hcut hlen
  have hu : u = [] := by
    have h := congrArg List.length huv
    rw [List.length_append] at h
    exact List.length_eq_zero_iff.mp (by omega)
  subst hu
  rcases hcut with rfl | ⟨hlast, -⟩
  · exact absurd hlen (Nat.not_lt_zero _)
  · cases hlast

/-- With the prefix at the next cut, all in front of the one after it are directories. -/
theorem Checked.next (h : Checked fs path s st) (hpath : path = before ++ s)
    (hmono : ∀ u, fs.isDir st u = true → fs.isDir st' u = true)
    (hdir : fs.isDir st' (before ++ (nextCut s).1) = true) : Checked fs path (nextCut s).2 st' := by
  intro u v huv hcut hlen
  have hpath' : path = (before ++ (nextCut s).1) ++ (nextCut s).2 := by
    rw [List.append_assoc, nextCut_append, hpath]
  have hle := length_of_atCut hpath' huv hcut hlen
  rcases Nat.eq_or_lt_of_le hle with heq | hlt
  · have hu : u = before ++ (nextCut s).1 :=
      (List.append_inj' (huv.symm.trans hpath') heq.symm).1
    rw [hu]
    exact hdir
  · exact hmono u (h u v huv hcut hlt)

/-- What `mkpath` is to come to. -/
structure PathResult (fs : FileSystem σ) (path : List UInt8) (st : σ) (ret : Int) (t : σ) : Prop where
  values : ret = 0 ∨ ret = -1
  success : ret = 0 ↔ ∀ u, IsSlashPrefix path u → fs.isDir t u = true
  /-- Something else stands at a prefix, or a missing one cannot be made. -/
  failure : ret = -1 → ∃ u, IsSlashPrefix path u ∧
    ((fs.access t u = true ∧ fs.isDir t u = false) ∨ (fs.access t u = false ∧ fs.mkdir t u = none))
  made : fs.Made (IsSlashPrefix path) st t

/-- The prefix that is tested. -/
theorem isSlashPrefix_next (hpath : path = before ++ s) :
    IsSlashPrefix path (before ++ (nextCut s).1) :=
  ⟨(nextCut s).2, by rw [List.append_assoc, nextCut_append, hpath], atCut_nextCut before s⟩

/-- A prefix that is no directory and is not made one ends the loop. -/
theorem pathResult_failure (hpath : path = before ++ s) (hmade : fs.Made (IsSlashPrefix path) st st')
    (hfail : (fs.access st' (before ++ (nextCut s).1) = true ∧
        fs.isDir st' (before ++ (nextCut s).1) = false) ∨
      (fs.access st' (before ++ (nextCut s).1) = false ∧
        fs.mkdir st' (before ++ (nextCut s).1) = none)) : PathResult fs path st (-1) st' := by
  have hprefix := isSlashPrefix_next hpath
  have hdir : fs.isDir st' (before ++ (nextCut s).1) = false := by
    rcases hfail with ⟨-, hdir⟩ | ⟨hacc, -⟩
    · exact hdir
    · exact FileSystem.isDir_of_not_access hacc
  refine ⟨.inr rfl, ⟨fun h => absurd h (by decide), fun hall => ?_⟩, fun _ => ⟨_, hprefix, hfail⟩, hmade⟩
  rw [hall _ hprefix] at hdir
  cases hdir

/-- The end of the path is reached. -/
theorem pathResult_end (hpath : path = before ++ s) (h : Checked fs path s st')
    (hmade : fs.Made (IsSlashPrefix path) st st') (hend : (nextCut s).2 = [])
    (hdir : fs.isDir st' (before ++ (nextCut s).1) = true) : PathResult fs path st 0 st' := by
  refine ⟨.inl rfl, ⟨fun _ => ?_, fun _ => rfl⟩, fun h => absurd h (by decide), hmade⟩
  rintro u ⟨v, huv, hcut⟩
  by_cases hv : v = []
  · have hs : (nextCut s).1 = s := by
      have := nextCut_append s
      rwa [hend, List.append_nil] at this
    rw [hs, ← hpath, huv, hv, List.append_nil] at hdir
    exact hdir
  · apply h u v huv hcut
    rw [hend]
    exact List.length_pos_iff.mpr hv

/-- What the loop does behind a prefix that is a directory. -/
def mkpathNext (fs : FileSystem σ) (fuel : Nat) (before s : List UInt8) (st : σ) : Option (Int × σ) :=
  if (nextCut s).2 = [] then some (0, st)
  else mkpathLoop fs fuel (before ++ (nextCut s).1) (nextCut s).2 st

theorem mkpathLoop_succ (fs : FileSystem σ) (fuel : Nat) (before s : List UInt8) (st : σ) :
    mkpathLoop fs (fuel + 1) before s st =
      if fs.access st (before ++ (nextCut s).1) then
        if !fs.isDir st (before ++ (nextCut s).1) then some (-1, st) else mkpathNext fs fuel before s st
      else
        match fs.mkdir st (before ++ (nextCut s).1) with
        | none => some (-1, st)
        | some st => mkpathNext fs fuel before s st := rfl

/-- Every run of the loop that ends comes to what it is to come to. -/
theorem mkpathLoop_result (hpath : path = before ++ s) (h : Checked fs path s st')
    (hmade : fs.Made (IsSlashPrefix path) st st') {t : σ}
    (hrun : mkpathLoop fs fuel before s st' = some (ret, t)) : PathResult fs path st ret t := by
  induction fuel generalizing before s st' with
  | zero => cases hrun
  | succ fuel ih =>
    have hpath' : path = (before ++ (nextCut s).1) ++ (nextCut s).2 := by
      rw [List.append_assoc, nextCut_append, hpath]
    -- what happens behind a prefix that is a directory
    have hgo : ∀ st'', (∀ u, fs.isDir st' u = true → fs.isDir st'' u = true) →
        fs.isDir st'' (before ++ (nextCut s).1) = true → fs.Made (IsSlashPrefix path) st st'' →
        mkpathNext fs fuel before s st'' = some (ret, t) → PathResult fs path st ret t := by
      intro st'' hmono hdir hmade' hrest
      unfold mkpathNext at hrest
      by_cases hend : (nextCut s).2 = []
      · rw [if_pos hend] at hrest
        cases hrest
        exact pathResult_end hpath (fun u v huv hcut hlen => hmono u (h u v huv hcut hlen)) hmade' hend
          hdir
      · rw [if_neg hend] at hrest
        exact ih hpath' (h.next hpath hmono hdir) hmade' hrest
    rw [mkpathLoop_succ] at hrun
    cases hacc : fs.access st' (before ++ (nextCut s).1) with
    | true =>
      rw [hacc, if_pos rfl] at hrun
      cases hdir : fs.isDir st' (before ++ (nextCut s).1) with
      | true =>
        rw [hdir] at hrun
        exact hgo st' (fun _ hu => hu) hdir hmade hrun
      | false =>
        rw [hdir] at hrun
        cases hrun
        exact pathResult_failure hpath hmade (.inl ⟨hacc, hdir⟩)
    | false =>
      rw [hacc, if_neg Bool.false_ne_true] at hrun
      cases hmk : fs.mkdir st' (before ++ (nextCut s).1) with
      | none =>
        rw [hmk] at hrun
        cases hrun
        exact pathResult_failure hpath hmade (.inr ⟨hacc, hmk⟩)
      | some st'' =>
        rw [hmk] at hrun
        exact hgo st'' (fun _ hu => FileSystem.isDir_mkdir hmk hu) (FileSystem.isDir_mkdir_self hmk)
          (hmade.mkdir (isSlashPrefix_next hpath) hmk) hrun

/-- The loop ends: every iteration takes a part of what is left. -/
theorem mkpathLoop_isSome (hfuel : s.length < fuel) (before : List UInt8) (st : σ) :
    (mkpathLoop fs fuel before s st).isSome = true := by
  induction fuel generalizing before s st with
  | zero => exact absurd hfuel (Nat.not_lt_zero _)
  | succ fuel ih =>
    have hgo : ∀ st' : σ, (mkpathNext fs fuel before s st').isSome = true := by
      intro st'
      unfold mkpathNext
      by_cases hend : (nextCut s).2 = []
      · rw [if_pos hend]
        rfl
      · rw [if_neg hend]
        apply ih
        have hs : s ≠ [] := by
          rintro rfl
          exact hend rfl
        have hlen := congrArg List.length (nextCut_append s)
        have hpos := List.length_pos_iff.mpr (nextCut_ne_nil hs)
        rw [List.length_append] at hlen
        omega
    rw [mkpathLoop_succ]
    split
    · split
      · rfl
      · exact hgo st
    · cases fs.mkdir st (before ++ (nextCut s).1) with
      | none => rfl
      | some st' => exact hgo st'

/-! ## The main result -/

/-- For every path, file system and state of it: `mkpath` ends, with 0 exactly when all prefixes of the
path are directories then, and with -1 only when one of them is something else or could not be made; it
makes missing prefixes and nothing else changes. -/
theorem mkpath_makes (fs : FileSystem σ) (path : List UInt8) (st : σ) :
    (∃ fuel, (mkpath fs fuel path st).isSome = true) ∧
      ∀ fuel ret t, mkpath fs fuel path st = some (ret, t) → PathResult fs path st ret t :=
  ⟨⟨path.length + 1, mkpathLoop_isSome (Nat.lt_succ_self _) [] st⟩, fun _ _ _ hrun =>
    mkpathLoop_result (List.nil_append path).symm (checked_init fs path st) (FileSystem.Made.refl _ st) hrun⟩

/-- A tree with the file `/f` only. -/
def oneFile : DirTree (List UInt8) where
  node p := if p = [] then some .dir else if p = [ascii "f"] then some .file else none
  root := rfl
  parent := by
    intro p n h
    have hne : p ++ [n] ≠ [] := by simp
    rw [if_neg hne] at h
    split at h
    · rename_i hp
      have hsplit : p ++ [n] = [] ++ [ascii "f"] := hp
      rw [(List.append_inj' hsplit rfl).1]
      rfl
    · cases h

/-- Repeated slashes and one at the end; a file in the way. -/
example : (mkpath treeSystem 8 (ascii "//a///b/") oneFile).map
      (fun r => (r.1, r.2.node [ascii "a", ascii "b"])) = some (0, some .dir) ∧
    (mkpath treeSystem 8 (ascii "/f/b") oneFile).map Prod.fst = some (-1) := ⟨rfl, rfl⟩

end VdCamera.Storage
