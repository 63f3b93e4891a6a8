import Mathlib.Data.List.Infix
import Mathlib.Data.List.TakeWhile
import VdCamera.Ftp.Path

/-!
# A path is made as far as it is missing

The first loop stops at a prefix that can be entered, while the next longer one can not; from there
the second loop makes one name after the other. That needs commands that fit into their buffers.
-/

namespace VdCamera.Ftp

open Misc (ascii crlf tokens DirTree DoubleByte LosslessDoubleByte scanDown)

variable {enc : LosslessDoubleByte} {s s' : Server} {path dir arg a r : List UInt8} {i j k m n : Nat}

/-! ## The commands -/

/-- A directory that `CWD` can be sent with. -/
def Fits (enc : LosslessDoubleByte) (dir : List UInt8) : Prop :=
  enc.complete dir = true ∧ dir.length ≤ 249 ∧ (enc.toUtf8 dir).length ≤ 249

/-- The argument of a line comes back. -/
theorem arg_eq (cmd arg : List UInt8) (h : cmd.length = 4) :
    ((cmd ++ arg ++ crlf).drop 4).dropLast.dropLast = arg := by
  rw [List.append_assoc, List.drop_left' h]
  simp [crlf, List.dropLast_append_of_ne_nil]

theorem answer_cwd (s : Server) (arg : List UInt8) : s.answer (ascii "CWD " ++ arg ++ crlf)
    = some (match s.changeDir arg with
      | some s' => (250, s')
      | none => (550, s)) := by
  have hend : crlf.isSuffixOf (ascii "CWD " ++ arg ++ crlf) = true :=
    List.isSuffixOf_iff_suffix.mpr (List.suffix_append _ _)
  have hcmd : (ascii "CWD ").isPrefixOf (ascii "CWD " ++ arg ++ crlf) = true := by
    rw [List.isPrefixOf_iff_prefix, List.append_assoc]
    exact List.prefix_append _ _
  cases hdir : s.changeDir arg with
  | none => rw [Server.answer, if_pos hend, if_pos hcmd, arg_eq _ _ rfl, hdir]
  | some s' => rw [Server.answer, if_pos hend, if_pos hcmd, arg_eq _ _ rfl, hdir]

theorem answer_mkd (s : Server) (arg : List UInt8) : s.answer (ascii "MKD " ++ arg ++ crlf)
    = some (match s.makeDir arg with
      | some s' => (257, s')
      | none => (550, s)) := by
  have hend : crlf.isSuffixOf (ascii "MKD " ++ arg ++ crlf) = true :=
    List.isSuffixOf_iff_suffix.mpr (List.suffix_append _ _)
  have hcwd : (ascii "CWD ").isPrefixOf (ascii "MKD " ++ arg ++ crlf) = false := rfl
  have hcmd : (ascii "MKD ").isPrefixOf (ascii "MKD " ++ arg ++ crlf) = true := by
    rw [List.isPrefixOf_iff_prefix, List.append_assoc]
    exact List.prefix_append _ _
  have hne : ¬ (ascii "CWD ").isPrefixOf (ascii "MKD " ++ arg ++ crlf) = true := by
    rw [hcwd]
    exact Bool.false_ne_true
  cases hdir : s.makeDir arg with
  | none => rw [Server.answer, if_pos hend, if_neg hne, if_pos hcmd, arg_eq _ _ rfl, hdir]
  | some s' => rw [Server.answer, if_pos hend, if_neg hne, if_pos hcmd, arg_eq _ _ rfl, hdir]

theorem complete_cmd (enc : LosslessDoubleByte) (dir : List UInt8) :
    enc.complete (ascii "CWD " ++ dir ++ crlf) = enc.complete dir := by
  have hcwd : enc.complete [67, 87, 68] = true := rfl
  have hlf : enc.complete [10] = true := rfl
  change enc.complete ([67, 87, 68] ++ 32 :: (dir ++ 13 :: [10])) = _
  rw [DoubleByte.complete_append (by decide), DoubleByte.complete_append (by decide), hcwd, hlf,
    Bool.true_and, Bool.and_true]

theorem toUtf8_cmd (h : enc.complete dir = true) : enc.toUtf8 (ascii "CWD " ++ dir ++ crlf)
    = ascii "CWD " ++ enc.toUtf8 dir ++ crlf := by
  rw [List.append_assoc, DoubleByte.toUtf8_append_ascii (DoubleByte.ascii_of_all rfl),
    DoubleByte.toUtf8_append h, List.append_assoc]
  congr 2

theorem length_cmd (dir : List UInt8) : (ascii "CWD " ++ dir ++ crlf).length = dir.length + 6 := by
  rw [List.length_append, List.length_append, Nat.add_comm (ascii "CWD ").length]
  rfl

theorem ftpCdDir_eq (h : Fits enc dir) (s : Server) : ftpCdDir enc s dir
    = some (match s.changeDir (enc.toUtf8 dir) with
      | some s' => (true, s')
      | none => (false, s)) := by
  obtain ⟨hcomplete, hlen, hlen'⟩ := h
  have hconv : convertEnc enc (ascii "CWD " ++ dir ++ crlf) 256
      = some (ascii "CWD " ++ enc.toUtf8 dir ++ crlf) := by
    rw [convertEnc, complete_cmd, toUtf8_cmd hcomplete, length_cmd]
    exact if_pos ⟨hcomplete, by omega⟩
  rw [ftpCdDir, length_cmd, if_pos (show dir.length + 6 < 256 by omega), hconv, Option.bind_some,
    answer_cwd]
  cases s.changeDir (enc.toUtf8 dir) <;> rfl

theorem ftpCdDir_eq_none (h : ¬ Fits enc dir) (s : Server) : ftpCdDir enc s dir = none := by
  rw [ftpCdDir, length_cmd]
  split
  · next hlen =>
    rw [convertEnc, if_neg]
    · rfl
    · rw [complete_cmd]
      rintro ⟨hcomplete, hlen'⟩
      rw [toUtf8_cmd hcomplete, length_cmd] at hlen'
      exact h ⟨hcomplete, by omega, by omega⟩
  · rfl

theorem ftpMkd_eq (h : enc.complete dir = true) (hne : dir ≠ []) (s : Server) : ftpMkd enc s dir
    = some (match s.makeDir (enc.toUtf8 dir) with
      | some s' => (true, s')
      | none => (false, s)) := by
  have hpos : 0 < dir.length := List.length_pos_iff.mpr hne
  have hle := DoubleByte.length_toUtf8_le enc.toDoubleByte dir
  have hconv : convertEnc enc dir (dir.length * 2) = some (enc.toUtf8 dir) :=
    if_pos ⟨h, by omega⟩
  have hlen : (ascii "MKD " ++ enc.toUtf8 dir ++ crlf).length = (enc.toUtf8 dir).length + 6 := by
    rw [List.length_append, List.length_append, Nat.add_comm (ascii "MKD ").length]
    rfl
  rw [ftpMkd, if_neg (by omega), hconv, Option.bind_some]
  dsimp only
  rw [hlen, if_pos (by omega), answer_mkd]
  cases s.makeDir (enc.toUtf8 dir) <;> rfl

/-! ## The server -/

/-- What `CWD` leaves. -/
theorem changeDir_eq_some (h : s.changeDir arg = some s') :
    s'.tree = s.tree ∧ s'.cwd = resolve s.cwd arg := by
  unfold Server.changeDir at h
  split at h
  · cases h
    exact ⟨rfl, rfl⟩
  · cases h

theorem changeDir_eq_none (h : s.changeDir arg = none) :
    s.tree.node (resolve s.cwd arg) ≠ some .dir := by
  unfold Server.changeDir at h
  split at h
  · cases h
  · next hdir => rwa [DirTree.isDir_iff] at hdir

theorem changeDir_isSome (h : s.tree.node (resolve s.cwd arg) = some .dir) :
    (s.changeDir arg).isSome = true := by
  rw [← DirTree.isDir_iff] at h
  rw [Server.changeDir, dif_pos h]
  rfl

/-- `MKD` with one name behind a place. -/
theorem makeDir_eq_some {p : List Name} {name : Name} (hp : resolve s.cwd arg = p ++ [name])
    (h : s.makeDir arg = some s') :
    s'.cwd = s.cwd ∧ s.tree.mkdir p name = some s'.tree := by
  unfold Server.makeDir at h
  split at h
  · cases h
  · next last hlast =>
    split at h
    · cases h
    · next tree hmk =>
      cases h
      rw [hp, List.getLast?_concat, Option.some.injEq] at hlast
      rw [hp, List.dropLast_concat, ← hlast] at hmk
      exact ⟨rfl, hmk⟩

theorem makeDir_isSome {p : List Name} {name : Name} (hp : resolve s.cwd arg = p ++ [name])
    (h : (s.tree.mkdir p name).isSome = true) : (s.makeDir arg).isSome = true := by
  unfold Server.makeDir
  split
  · next hlast =>
    rw [hp, List.getLast?_concat] at hlast
    cases hlast
  · next last hlast =>
    rw [hp, List.getLast?_concat, Option.some.injEq] at hlast
    split
    · next hmk =>
      rw [hp, List.dropLast_concat, ← hlast] at hmk
      rw [hmk] at h
      cases h
    · rfl

/-- A name is made in a place and entered, or nothing happens. -/
theorem makeEnter_spec {p : List Name} {name : Name} (hfit : Fits enc dir) (hne : dir ≠ [])
    (hp : ∀ s' : Server, s'.cwd = s.cwd → resolve s'.cwd (enc.toUtf8 dir) = p ++ [name]) :
    (makeEnter enc s dir = some (false, s) ∧ s.tree.mkdir p name = none)
    ∨ ∃ s', makeEnter enc s dir = some (true, s') ∧ s'.cwd = p ++ [name]
      ∧ s.tree.mkdir p name = some s'.tree := by
  rw [makeEnter, ftpMkd_eq hfit.1 hne]
  cases hmk : s.makeDir (enc.toUtf8 dir) with
  | none =>
    refine .inl ⟨rfl, ?_⟩
    cases hmkdir : s.tree.mkdir p name with
    | none => rfl
    | some tree =>
      have hsome := makeDir_isSome (hp s rfl) (by rw [hmkdir]; rfl)
      rw [hmk] at hsome
      cases hsome
  | some s₁ =>
    obtain ⟨hcwd, hmkdir⟩ := makeDir_eq_some (hp s rfl) hmk
    obtain ⟨_, hnew, _⟩ := DirTree.mkdir_eq_some hmkdir
    have hres := hp s₁ hcwd
    have henter : (s₁.changeDir (enc.toUtf8 dir)).isSome = true :=
      changeDir_isSome (by rw [hres, hnew])
    obtain ⟨s₂, hs₂⟩ := Option.isSome_iff_exists.mp henter
    obtain ⟨htree, hcwd₂⟩ := changeDir_eq_some hs₂
    refine .inr ⟨s₂, ?_, by rw [hcwd₂, hres], by rw [htree, hmkdir]⟩
    dsimp only [Option.bind_some]
    rw [if_pos rfl, ftpCdDir_eq hfit, hs₂]

/-! ## The names of a path -/

/-- The names of a path, as the server has them. -/
def names (enc : LosslessDoubleByte) (path : List UInt8) : List Name := tokens 47 (enc.toUtf8 path)

/-- The place from which a path leads. -/
def base (cwd : List Name) (path : List UInt8) : List Name :=
  if path.head? = some 47 then [] else cwd

theorem toUtf8_slash (h : enc.complete (a ++ 47 :: r) = true) :
    enc.toUtf8 (a ++ 47 :: r) = enc.toUtf8 a ++ 47 :: enc.toUtf8 r := by
  rw [DoubleByte.complete_append (by decide), Bool.and_eq_true] at h
  rw [DoubleByte.toUtf8_append h.1, DoubleByte.toUtf8_ascii (by decide)]

theorem Fits.left (h : Fits enc (a ++ 47 :: r)) : Fits enc a := by
  obtain ⟨hcomplete, hlen, hlen'⟩ := h
  rw [toUtf8_slash hcomplete, List.length_append] at hlen'
  rw [List.length_append] at hlen
  rw [DoubleByte.complete_append (by decide), Bool.and_eq_true] at hcomplete
  exact ⟨hcomplete.1, by omega, by omega⟩

theorem Fits.right (h : Fits enc (a ++ 47 :: r)) : Fits enc r := by
  obtain ⟨hcomplete, hlen, hlen'⟩ := h
  rw [toUtf8_slash hcomplete, List.length_append, List.length_cons] at hlen'
  rw [List.length_append, List.length_cons] at hlen
  rw [DoubleByte.complete_append (by decide), Bool.and_eq_true] at hcomplete
  exact ⟨hcomplete.2, by omega, by omega⟩

theorem names_append (h : Fits enc (a ++ 47 :: r)) :
    names enc (a ++ 47 :: r) = names enc a ++ names enc r := by
  rw [names, toUtf8_slash h.1, Misc.tokens_append]
  rfl

theorem names_of_not_mem (h : Fits enc a) (hslash : 47 ∉ a) (hne : a ≠ []) :
    names enc a = [enc.toUtf8 a] :=
  Misc.tokens_of_not_mem (DoubleByte.not_mem_toUtf8 (by decide) hslash)
    (enc.toUtf8_ne_nil h.1 hne)

/-- The conversion keeps it whether a path is absolute. -/
theorem head?_toUtf8 (h : enc.complete path = true) :
    (enc.toUtf8 path).head? = some 47 ↔ path.head? = some 47 := by
  match path with
  | [] => rfl
  | [b] =>
    have hb : b < 128 := by simpa [DoubleByte.complete] using h
    rw [DoubleByte.toUtf8_ascii hb]
    rfl
  | b :: c :: r =>
    by_cases hb : b < 128
    · rw [DoubleByte.toUtf8_ascii hb]
      rfl
    · rw [DoubleByte.complete, if_neg hb, Bool.and_eq_true] at h
      obtain ⟨u, hu⟩ := Option.isSome_iff_exists.mp h.1
      rw [DoubleByte.toUtf8_char hb hu]
      have hb47 : b ≠ 47 := by
        rintro rfl
        exact hb (by decide)
      cases u with
      | nil => exact absurd rfl (enc.nonempty b c [] hu)
      | cons x u =>
        have hx : x ≠ 47 := by
          rintro rfl
          exact absurd (enc.high b c _ hu 47 (List.mem_cons_self ..)) (by decide)
        simp [hx, hb47]

theorem resolve_eq (h : Fits enc path) (cwd : List Name) :
    resolve cwd (enc.toUtf8 path) = base cwd path ++ names enc path := by
  unfold resolve base
  by_cases hhead : path.head? = some 47
  · rw [if_pos ((head?_toUtf8 h.1).mpr hhead), if_pos hhead]
    rfl
  · rw [if_neg fun h' => hhead ((head?_toUtf8 h.1).mp h'), if_neg hhead]
    rfl

/-! ## What stands up to a slash -/

/-- The path up to the next slash. -/
def upTo (path : List UInt8) (k : Nat) : List UInt8 :=
  path.take k ++ (path.drop k).takeWhile (· ≠ 47)

theorem split_takeWhile (r : List UInt8) :
    r = r.takeWhile (· ≠ 47) ∨ ∃ r', r = r.takeWhile (· ≠ 47) ++ 47 :: r' := by
  induction r with
  | nil => exact .inl rfl
  | cons b r ih =>
    by_cases hb : b = 47
    · subst hb
      exact .inr ⟨r, by simp⟩
    · rw [List.takeWhile_cons_of_pos (by simpa using hb)]
      rcases ih with ih | ⟨r', ih⟩
      · exact .inl (congrArg _ ih)
      · exact .inr ⟨r', congrArg _ ih⟩

theorem split_upTo (path : List UInt8) (k : Nat) :
    path = upTo path k ∨ ∃ r, path = upTo path k ++ 47 :: r := by
  rcases split_takeWhile (path.drop k) with h | ⟨r, h⟩
  · left
    rw [upTo, ← h, List.take_append_drop]
  · right
    exact ⟨r, by rw [upTo, List.append_assoc, ← h, List.take_append_drop]⟩

theorem Fits.upTo (h : Fits enc path) (k : Nat) : Fits enc (upTo path k) := by
  rcases split_upTo path k with heq | ⟨r, heq⟩
  · rwa [← heq]
  · rw [heq] at h
    exact h.left

theorem names_upTo_le (h : Fits enc path) (k : Nat) :
    names enc (upTo path k) <+: names enc path := by
  rcases split_upTo path k with heq | ⟨r, heq⟩
  · rw [← heq]
  · have hnames := names_append (heq ▸ h : Fits enc (upTo path k ++ 47 :: r))
    rw [← heq] at hnames
    rw [hnames]
    exact List.prefix_append _ _

theorem base_upTo (hk : 0 < k) (cwd : List Name) : base cwd (upTo path k) = base cwd path := by
  cases path with
  | nil => rw [upTo, List.take_nil, List.drop_nil]; rfl
  | cons b r =>
    obtain ⟨k, rfl⟩ := Nat.exists_eq_succ_of_ne_zero hk.ne'
    rfl

theorem take_append_slash (h : path[k]? = some 47) :
    path.take k ++ 47 :: path.drop (k + 1) = path := by
  obtain ⟨hlt, hk⟩ := List.getElem?_eq_some_iff.mp h
  rw [← hk, List.getElem_cons_drop, List.take_append_drop]

theorem upTo_slash (h : path[k]? = some 47) : upTo path k = path.take k := by
  obtain ⟨hlt, hk⟩ := List.getElem?_eq_some_iff.mp h
  rw [upTo, List.drop_eq_getElem_cons hlt, hk]
  simp

theorem upTo_succ_slash (h : path[k]? = some 47) :
    upTo path (k + 1) = path.take k ++ 47 :: (path.drop (k + 1)).takeWhile (· ≠ 47) := by
  rw [upTo, List.take_add_one, h, List.append_assoc]
  rfl

theorem upTo_succ {b : UInt8} (h : path[k]? = some b) (hb : b ≠ 47) :
    upTo path (k + 1) = upTo path k := by
  obtain ⟨hlt, hk⟩ := List.getElem?_eq_some_iff.mp h
  rw [upTo, upTo, List.drop_eq_getElem_cons hlt, hk,
    List.takeWhile_cons_of_pos (by simpa using hb), List.take_add_one, h, List.append_assoc]
  rfl

/-! ## The copy of the path -/

def zeroed (b : UInt8) : UInt8 := if b = 47 then 0 else b

/-- The copy in which the slashes from `m` on are terminators. -/
def marked (path : List UInt8) (m : Nat) : List UInt8 := path.take m ++ (path.drop m).map zeroed ++ [0]

theorem map_zeroed (h : 47 ∉ a) : a.map zeroed = a := by
  induction a with
  | nil => rfl
  | cons b a ih =>
    rw [List.mem_cons, not_or] at h
    rw [List.map_cons, ih h.2, zeroed, if_neg (Ne.symm h.1)]

theorem stringAt_of_drop {tmpPath x y : List UInt8} (h : tmpPath.drop i = x ++ 0 :: y)
    (h0 : 0 ∉ x) : stringAt tmpPath i = some x := by
  rw [stringAt, h, if_pos (by simp), List.takeWhile_append_of_pos]
  · simp
  · intro b hb
    have hne : b ≠ 0 := fun hb0 => h0 (hb0 ▸ hb)
    simpa using hne

theorem slash_not_mem_takeWhile (r : List UInt8) : 47 ∉ r.takeWhile (· ≠ 47) := by
  intro h
  simpa using List.mem_takeWhile_imp h

theorem drop_marked (hm : m ≤ k) (hk : k ≤ path.length) :
    (marked path m).drop k = (path.drop k).map zeroed ++ [0] := by
  have hlen : (path.take m).length = m := List.length_take_of_le (hm.trans hk)
  obtain ⟨d, rfl⟩ := Nat.exists_eq_add_of_le hm
  have htake : (path.take m ++ (path.drop m).map zeroed ++ [0]).drop m
      = (path.drop m).map zeroed ++ [0] := by
    rw [List.append_assoc]
    exact List.drop_left' hlen
  have hle : d ≤ ((path.drop m).map zeroed).length := by
    rw [List.length_map, List.length_drop]
    omega
  rw [marked, ← List.drop_drop, htake, List.drop_append_of_le_length hle, ← List.map_drop,
    List.drop_drop]

theorem stringAt_marked (h0 : 0 ∉ path) (hm : m ≤ k) (hk : k ≤ path.length) :
    stringAt (marked path m) k = some ((path.drop k).takeWhile (· ≠ 47)) := by
  have hdrop := drop_marked hm hk
  have hzero : 0 ∉ (path.drop k).takeWhile (· ≠ 47) := fun h =>
    h0 (List.mem_of_mem_drop (List.takeWhile_subset _ h))
  have hmap := map_zeroed (slash_not_mem_takeWhile (path.drop k))
  rcases split_takeWhile (path.drop k) with h | ⟨r, h⟩
  · apply stringAt_of_drop (y := []) _ hzero
    rw [hdrop, ← hmap, ← h]
  · apply stringAt_of_drop (y := r.map zeroed ++ [0]) _ hzero
    rw [hdrop, h, List.map_append, hmap, List.append_assoc, ← h]
    rfl

theorem getElem?_marked {b : UInt8} (hm : m ≤ k) (hk : path[k]? = some b) :
    (marked path m)[k]? = some (zeroed b) := by
  obtain ⟨hlt, hb⟩ := List.getElem?_eq_some_iff.mp hk
  have hdrop := drop_marked hm hlt.le
  rw [List.drop_eq_getElem_cons hlt, hb] at hdrop
  rw [← Nat.add_zero k, ← List.getElem?_drop, hdrop]
  rfl

/-! ## The second loop -/

/-- Behind what stands up to the next slash nothing of the path is there. -/
def Ahead (enc : LosslessDoubleByte) (path : List UInt8) (s : Server) (k : Nat) : Prop :=
  ∀ q, q ≠ [] → names enc (upTo path k) ++ q <+: names enc path → s.tree.node (s.cwd ++ q) = none

/-- Where no slash follows another, a name stands behind each but the last byte. -/
theorem takeWhile_ne_nil (hdouble : ¬ [47, 47] <:+: path) (hk : path[k]? = some 47)
    (hlt : k + 1 < path.length) : (path.drop (k + 1)).takeWhile (· ≠ 47) ≠ [] := by
  intro hcomp
  apply hdouble
  have hpath := take_append_slash hk
  rw [List.drop_eq_getElem_cons hlt] at hcomp hpath
  have hnext : path[k + 1] = 47 := by
    by_contra hne
    rw [List.takeWhile_cons_of_pos (by simpa using hne)] at hcomp
    cases hcomp
  rw [hnext] at hpath
  exact ⟨path.take k, path.drop (k + 1 + 1), by rw [List.append_assoc]; exact hpath⟩

/-- A name behind a slash is made. -/
theorem makeRest_step {P : List Name → Prop} {t : DirTree Name} {b : List Name}
    (hP : ∀ k, P (b ++ names enc (upTo path k))) (hfit : Fits enc path) (hk : path[k]? = some 47)
    (hlt : k + 1 < path.length)
    (hcwd : s.cwd = b ++ names enc (upTo path k)) (hmade : DirTree.Made P t s.tree) :
    (makeEnter enc s ((path.drop (k + 1)).takeWhile (· ≠ 47)) = some (false, s)
        ∧ (¬ [47, 47] <:+: path → ¬ Ahead enc path s k))
      ∨ ∃ s', makeEnter enc s ((path.drop (k + 1)).takeWhile (· ≠ 47)) = some (true, s')
        ∧ s'.cwd = b ++ names enc (upTo path (k + 1)) ∧ DirTree.Made P t s'.tree
        ∧ (Ahead enc path s k → Ahead enc path s' (k + 1)) := by
  have hsucc := upTo_succ_slash hk
  have hfitSucc := hfit.upTo (k + 1)
  rw [hsucc] at hfitSucc
  have hnames := names_append hfitSucc
  rw [← hsucc, ← upTo_slash hk] at hnames
  by_cases hcomp : (path.drop (k + 1)).takeWhile (· ≠ 47) = []
  · left
    exact ⟨by rw [hcomp]; rfl, fun hdouble => absurd hcomp (takeWhile_ne_nil hdouble hk hlt)⟩
  · have hslash := slash_not_mem_takeWhile (path.drop (k + 1))
    have hname := names_of_not_mem hfitSucc.right hslash hcomp
    rw [hname] at hnames
    have hplace : s.cwd ++ [enc.toUtf8 ((path.drop (k + 1)).takeWhile (· ≠ 47))]
        = b ++ names enc (upTo path (k + 1)) := by
      rw [hcwd, hnames, List.append_assoc]
    have hresolve : ∀ s' : Server, s'.cwd = s.cwd →
        resolve s'.cwd (enc.toUtf8 ((path.drop (k + 1)).takeWhile (· ≠ 47)))
          = s.cwd ++ [enc.toUtf8 ((path.drop (k + 1)).takeWhile (· ≠ 47))] := by
      intro s' hs'
      rw [resolve_eq hfitSucc.right, hname, base, if_neg, hs']
      intro hhead
      exact hslash (List.mem_of_mem_head? hhead)
    rcases makeEnter_spec hfitSucc.right hcomp hresolve with ⟨heq, hnone⟩ | ⟨s', heq, hcwd', hmk⟩
    · refine .inl ⟨heq, fun _ hahead => ?_⟩
      have hfree := hahead _ (List.cons_ne_nil _ _) (hnames ▸ names_upTo_le hfit (k + 1))
      have hsome := DirTree.mkdir_isSome (DirTree.isDir_iff.mp s.inside) hfree
      rw [hnone] at hsome
      cases hsome
    · refine .inr ⟨s', heq, hcwd'.trans hplace, ?_, fun hahead => ?_⟩
      · exact hmade.mkdir (hplace ▸ hP (k + 1)) hmk
      · intro q hq hle
        obtain ⟨_, _, hrest⟩ := DirTree.mkdir_eq_some hmk
        rw [hcwd', hrest _ (by simpa using hq), List.append_assoc]
        apply hahead
        · simp
        · rw [hnames, List.append_assoc] at hle
          exact hle

/-- Up to the last byte there is nothing more to make. -/
theorem names_upTo_last (hfit : Fits enc path) (hk : path.length ≤ k + 1) :
    names enc (upTo path k) = names enc path := by
  rcases split_upTo path k with heq | ⟨r, heq⟩
  · rw [← heq]
  · have hfit' : Fits enc (upTo path k ++ 47 :: r) := heq ▸ hfit
    have hlen := congrArg List.length heq
    rw [List.length_append, List.length_cons, upTo, List.length_append, List.length_take] at hlen
    have hr : r = [] := List.length_eq_zero_iff.mp (by omega)
    have hnames := names_append hfit'
    rw [← heq, hr] at hnames
    rw [hnames]
    exact (List.append_nil _).symm

theorem makeRest_spec {P : List Name → Prop} {t : DirTree Name} {b : List Name}
    (hP : ∀ k, P (b ++ names enc (upTo path k))) (hfit : Fits enc path) (h0 : 0 ∉ path)
    (hm : m ≤ k) (hn : n = path.length - 1 - k) (hcwd : s.cwd = b ++ names enc (upTo path k))
    (hmade : DirTree.Made P t s.tree) :
    ∃ ok s', makeRest enc (marked path m) n s k = some (ok, s') ∧ DirTree.Made P t s'.tree
      ∧ (¬ [47, 47] <:+: path → Ahead enc path s k → ok = true ∧ s'.cwd = b ++ names enc path) := by
  induction n generalizing k s with
  | zero =>
    refine ⟨true, s, rfl, hmade, fun _ _ => ⟨rfl, ?_⟩⟩
    rw [hcwd, names_upTo_last hfit (by omega)]
  | succ n ih =>
    have hlt : k < path.length := by omega
    have hk := List.getElem?_eq_getElem hlt
    have hread := getElem?_marked hm hk
    rw [makeRest, hread, Option.bind_some]
    by_cases hslash : path[k] = 47
    · rw [hslash] at hk
      rw [if_pos (by rw [hslash]; rfl), stringAt_marked h0 (by omega) (by omega), Option.bind_some]
      rcases makeRest_step hP hfit hk (by omega) hcwd hmade with
        ⟨heq, hnot⟩ | ⟨s', heq, hcwd', hmade', hahead⟩
      · rw [heq]
        exact ⟨false, s, rfl, hmade, fun hdouble hah => absurd hah (hnot hdouble)⟩
      · rw [heq, Option.bind_some, if_pos rfl]
        obtain ⟨ok, s'', heq', hmade'', hok⟩ := ih (by omega) (by omega) hcwd' hmade'
        exact ⟨ok, s'', heq', hmade'', fun hdouble hah => hok hdouble (hahead hah)⟩
    · have hne : zeroed path[k] ≠ 0 := by
        rw [zeroed, if_neg hslash]
        intro hzero
        exact h0 (hzero ▸ List.getElem_mem hlt)
      have hupTo := upTo_succ hk hslash
      rw [if_neg hne]
      obtain ⟨ok, s', heq, hmade', hok⟩ :=
        ih (k := k + 1) (by omega) (by omega) (by rw [hupTo]; exact hcwd) hmade
      refine ⟨ok, s', heq, hmade', fun hdouble hah => hok hdouble ?_⟩
      rwa [Ahead, hupTo]

/-! ## The first loop -/

theorem upTo_length (path : List UInt8) : upTo path path.length = path := by
  rw [upTo, List.take_length, List.drop_length]
  exact List.append_nil _

/-- Between two cuts the marks are the same, and what stands up to the next slash. -/
theorem upTo_eq_take (hij : j ≤ i) (hi : i = path.length ∨ path[i]? = some 47)
    (h : ∀ k, j ≤ k → k < i → path[k]? ≠ some 47) (hlen : i ≤ path.length) :
    upTo path j = path.take i := by
  obtain ⟨d, rfl⟩ := Nat.exists_eq_add_of_le hij
  induction d generalizing j with
  | zero =>
    rcases hi with hi | hi
    · rw [Nat.add_zero] at hi ⊢
      rw [hi, upTo_length, List.take_length]
    · exact upTo_slash hi
  | succ d ih =>
    have hlt : j < path.length := by omega
    have hne : path[j] ≠ 47 := by
      intro hslash
      exact h j (Nat.le_refl j) (by omega) (by rw [List.getElem?_eq_getElem hlt, hslash])
    have hsum : j + (d + 1) = j + 1 + d := by omega
    rw [hsum] at hi hlen ⊢
    rw [← upTo_succ (List.getElem?_eq_getElem hlt) hne]
    apply ih (Nat.le_add_right _ _) hi
    · intro k hk hk'
      exact h k (by omega) (by omega)
    · exact hlen

theorem marked_succ {b : UInt8} (hk : path[k]? = some b) (hb : b ≠ 47) :
    marked path (k + 1) = marked path k := by
  obtain ⟨hlt, hget⟩ := List.getElem?_eq_some_iff.mp hk
  rw [marked, marked, List.take_add_one, hk, List.drop_eq_getElem_cons hlt, hget, List.map_cons,
    zeroed, if_neg hb]
  simp

theorem marked_congr (hij : j ≤ i) (h : ∀ k, j ≤ k → k < i → path[k]? ≠ some 47)
    (hlen : i ≤ path.length) : marked path i = marked path j := by
  obtain ⟨d, rfl⟩ := Nat.exists_eq_add_of_le hij
  induction d with
  | zero => rfl
  | succ d ih =>
    have hlt : j + d < path.length := by omega
    have hne : path[j + d] ≠ 47 := by
      intro hslash
      exact h (j + d) (by omega) (by omega) (by rw [List.getElem?_eq_getElem hlt, hslash])
    rw [← Nat.add_assoc, marked_succ (List.getElem?_eq_getElem hlt) hne]
    apply ih (Nat.le_add_right _ _)
    · intro k hk hk'
      exact h k hk (by omega)
    · omega

theorem set_marked (hk : path[k]? = some 47) :
    (marked path (k + 1)).set k 0 = marked path k := by
  obtain ⟨hlt, hget⟩ := List.getElem?_eq_some_iff.mp hk
  have hlen : (path.take k).length = k := List.length_take_of_le hlt.le
  rw [marked, marked, List.take_add_one, hk, List.drop_eq_getElem_cons hlt, hget, List.map_cons,
    List.append_assoc, List.append_assoc, List.set_append_right _ _ (by omega), hlen, Nat.sub_self,
    List.append_assoc]
  rfl

theorem getElem?_marked_of_lt (hk : k < m) (hlt : k < path.length) :
    (marked path m)[k]? = path[k]? := by
  have hlen : k < (path.take m).length := by
    rw [List.length_take]
    omega
  rw [marked, List.append_assoc, List.getElem?_append_left hlen, List.getElem?_take_of_lt hk]

theorem length_marked (hm : m ≤ path.length) : (marked path m).length = path.length + 1 := by
  rw [marked, List.length_append, List.length_append, List.length_map, List.length_drop,
    List.length_take_of_le hm]
  simp
  omega

/-- What the inner loop does to the marks. -/
theorem cutComponent_marked (hi : 0 < i) (hlen : i ≤ path.length)
    (hcut : i = path.length ∨ path[i]? = some 47) :
    (∃ j, 0 < j ∧ j < i ∧ path[j]? = some 47 ∧ upTo path (j + 1) = path.take i
      ∧ cutComponent (marked path i) i = some (marked path j, j))
    ∨ (upTo path 1 = path.take i ∧ cutComponent (marked path i) i = some (marked path 1, 0)) := by
  have hat : ¬ (marked path i)[i]? = some 47 := by
    intro h
    rcases hcut with heq | hslash
    · have hzero := drop_marked (Nat.le_refl i) hlen
      have hget : ((marked path i).drop i)[0]? = some 47 := by
        rw [List.getElem?_drop]
        exact h
      rw [hzero, heq, List.drop_length] at hget
      exact absurd hget (by decide)
    · rw [getElem?_marked (Nat.le_refl i) hslash] at h
      exact absurd h (by decide)
  have hbelow : ∀ j, (∀ k, j < k → k ≤ i → decide ((marked path i)[k]? = some 47) = false) →
      ∀ k, j + 1 ≤ k → k < i → path[k]? ≠ some 47 := by
    intro j hnone k hk hk' hslash
    have hfalse := hnone k (by omega) hk'.le
    rw [getElem?_marked_of_lt hk' (by omega), hslash] at hfalse
    exact absurd hfalse (by decide)
  rw [cutComponent, length_marked hlen, if_pos (by omega)]
  cases hscan : scanDown (fun k => (marked path i)[k]? = some 47) 1 i with
  | some j =>
    obtain ⟨hj, hji, hslash, hnone⟩ := Misc.scanDown_some hscan
    rw [decide_eq_true_eq] at hslash
    have hlt : j < i := Nat.lt_of_le_of_ne hji fun h => hat (h ▸ hslash)
    rw [getElem?_marked_of_lt hlt (by omega)] at hslash
    have hfree := hbelow j hnone
    refine .inl ⟨j, hj, hlt, hslash, upTo_eq_take hlt hcut hfree hlen, ?_⟩
    dsimp only
    rw [marked_congr hlt hfree hlen, set_marked hslash]
  | none =>
    have hnone := Misc.scanDown_none hscan
    have hfree := hbelow 0 fun k hk hk' => hnone k hk hk'
    refine .inr ⟨upTo_eq_take hi hcut hfree hlen, ?_⟩
    dsimp only
    rw [marked_congr hi hfree hlen]

theorem stringAt_cut (h0 : 0 ∉ path)
    (hcut : i = path.length ∨ path[i]? = some 47) :
    stringAt (marked path i) 0 = some (path.take i) := by
  have h0' : 0 ∉ path.take i := fun h => h0 (List.mem_of_mem_take h)
  rcases hcut with heq | hslash
  · apply stringAt_of_drop (y := []) _ h0'
    rw [List.drop_zero, marked, heq, List.drop_length]
    simp
  · obtain ⟨hlt, hget⟩ := List.getElem?_eq_some_iff.mp hslash
    apply stringAt_of_drop (y := (path.drop (i + 1)).map zeroed ++ [0]) _ h0'
    rw [List.drop_zero, marked, List.drop_eq_getElem_cons hlt, hget, List.map_cons,
      List.append_assoc]
    rfl

theorem stringAt_first (h0 : 0 ∉ path) (hne : path ≠ []) :
    stringAt (marked path 1) 0 = some (upTo path 1) := by
  obtain ⟨a, r, rfl⟩ := List.exists_cons_of_ne_nil hne
  rw [List.mem_cons, not_or] at h0
  have hw := map_zeroed (slash_not_mem_takeWhile r)
  have hzero : 0 ∉ upTo (a :: r) 1 := by
    change 0 ∉ a :: r.takeWhile (· ≠ 47)
    rw [List.mem_cons, not_or]
    exact ⟨h0.1, fun h => h0.2 (List.takeWhile_subset _ h)⟩
  rcases split_takeWhile r with h | ⟨r', h⟩
  · apply stringAt_of_drop (y := []) _ hzero
    change a :: (r.map zeroed ++ [0]) = a :: (r.takeWhile (· ≠ 47) ++ [0])
    rw [← hw, ← h]
  · apply stringAt_of_drop (y := r'.map zeroed ++ [0]) _ hzero
    change a :: (r.map zeroed ++ [0]) = a :: (r.takeWhile (· ≠ 47) ++ 0 :: (r'.map zeroed ++ [0]))
    have hmap := congrArg (List.map zeroed) h
    rw [List.map_append, hw] at hmap
    rw [hmap, List.append_assoc]
    rfl

/-- Where the first loop stops: with nothing entered, or at a prefix that can be entered, the next
longer one can not. -/
def Stops (enc : LosslessDoubleByte) (path : List UInt8) (s s' : Server) (j : Nat) : Prop :=
  (j = 0 ∧ s' = s ∧ s.changeDir (enc.toUtf8 (upTo path 1)) = none)
  ∨ (0 < j ∧ j ≤ path.length ∧ s.changeDir (enc.toUtf8 (path.take j)) = some s'
    ∧ upTo path j = path.take j
    ∧ (j < path.length → path[j]? = some 47 ∧ s.changeDir (enc.toUtf8 (upTo path (j + 1))) = none))

theorem enterExisting_spec (hfit : Fits enc path) (h0 : 0 ∉ path) (hfuel : i < n) (hi : 0 < i)
    (hlen : i ≤ path.length) (hcut : i = path.length ∨ path[i]? = some 47)
    (hnext : i < path.length → s.changeDir (enc.toUtf8 (upTo path (i + 1))) = none) :
    ∃ s' j, enterExisting enc n s (marked path i) i = some (s', marked path (max j 1), j)
      ∧ Stops enc path s s' j := by
  induction n generalizing i with
  | zero => omega
  | succ n ih =>
    have hupTo : upTo path i = path.take i :=
      upTo_eq_take (Nat.le_refl i) hcut (fun k hk hk' => by omega) hlen
    have hfitTake : Fits enc (path.take i) := hupTo ▸ hfit.upTo i
    rw [enterExisting, if_neg hi.ne', stringAt_cut h0 hcut, Option.bind_some,
      ftpCdDir_eq hfitTake]
    cases hcd : s.changeDir (enc.toUtf8 (path.take i)) with
    | some s' =>
      refine ⟨s', i, ?_, .inr ⟨hi, hlen, hcd, hupTo, fun hlt => ⟨?_, hnext hlt⟩⟩⟩
      · rw [Nat.max_eq_left hi]
        rfl
      · exact hcut.resolve_left hlt.ne
    | none =>
      rw [Option.bind_some, if_neg Bool.false_ne_true]
      rcases cutComponent_marked hi hlen hcut with ⟨j, hj, hji, hslash, hprev, hc⟩ | ⟨hprev, hc⟩
      · rw [hc, Option.bind_some]
        exact ih (by omega) hj (by omega) (.inr hslash) fun _ => by rw [hprev]; exact hcd
      · rw [hc, Option.bind_some]
        refine ⟨s, 0, ?_, .inl ⟨rfl, rfl, by rw [hprev]; exact hcd⟩⟩
        cases n with
        | zero => omega
        | succ n => rfl

/-! ## The whole path -/

/-- What the path asks of the server, when its first loop has stopped before a name: the name is no
directory there, so it is missing, and everything below it. -/
theorem ahead_of_missing {b : List Name} (hnofile : ∀ k, s.tree.node (b ++ (names enc path).take k)
    ≠ some .file) (hdouble : ¬ [47, 47] <:+: path) (hfit : Fits enc path) (hk : path[k]? = some 47)
    (hcwd : s.cwd = b ++ names enc (upTo path k))
    (hmissing : s.tree.node (b ++ names enc (upTo path (k + 1))) ≠ some .dir) :
    Ahead enc path s k := by
  intro q hq hle
  have hlt : k < path.length := (List.getElem?_eq_some_iff.mp hk).1
  by_cases hlast : path.length ≤ k + 1
  · -- The slash is the last byte.
    have hlen := hle.length_le
    rw [names_upTo_last hfit hlast, List.length_append] at hlen
    exact absurd (List.length_eq_zero_iff.mp (by omega)) hq
  · have hsucc := upTo_succ_slash hk
    have hfitSucc := hfit.upTo (k + 1)
    rw [hsucc] at hfitSucc
    have hcomp := takeWhile_ne_nil hdouble hk (by omega)
    have hnames := names_append hfitSucc
    rw [← hsucc, ← upTo_slash hk,
      names_of_not_mem hfitSucc.right (slash_not_mem_takeWhile _) hcomp] at hnames
    have hupTo := names_upTo_le hfit (k + 1)
    have hfile := hnofile (names enc (upTo path (k + 1))).length
    rw [← List.prefix_iff_eq_take.mp hupTo] at hfile
    have hnone : s.tree.node (b ++ names enc (upTo path (k + 1))) = none := by
      cases hnode : s.tree.node (b ++ names enc (upTo path (k + 1))) with
      | none => rfl
      | some kind =>
        cases kind
        · exact absurd hnode hmissing
        · exact absurd hnode hfile
    have hqle : names enc (upTo path (k + 1)) <+: names enc (upTo path k) ++ q := by
      apply List.prefix_of_prefix_length_le hupTo hle
      have hpos := List.length_pos_iff.mpr hq
      rw [hnames, List.length_append, List.length_append, List.length_singleton]
      omega
    obtain ⟨q', hq'⟩ := hqle
    rw [hcwd, List.append_assoc, ← hq', ← List.append_assoc]
    exact DirTree.node_append_of_none hnone q'

/-- A place that a prefix of the path leads to. -/
def Along (enc : LosslessDoubleByte) (cwd : List Name) (path : List UInt8) (p : List Name) : Prop :=
  ∃ k, p = base cwd path ++ (names enc path).take k

/-- The path ends in `ok` with the current directory there, and only what was missing of it is made. -/
def MkPathOk (enc : LosslessDoubleByte) (s : Server) (path : List UInt8) : Prop :=
  ∃ ok s', ftpMkPath enc s path = some (ok, s')
    ∧ DirTree.Made (Along enc s.cwd path) s.tree s'.tree
    ∧ (path ≠ [] → ¬ [47, 47] <:+: path
      → (∀ k, s.tree.node (base s.cwd path ++ (names enc path).take k) ≠ some .file)
      → ok = true ∧ s'.cwd = base s.cwd path ++ names enc path)

theorem along_upTo (hfit : Fits enc path) (cwd : List Name) (k : Nat) :
    Along enc cwd path (base cwd path ++ names enc (upTo path k)) :=
  ⟨_, congrArg _ (List.prefix_iff_eq_take.mp (names_upTo_le hfit k))⟩

/-- The first component has a name: without one it could have been entered. -/
theorem names_first (hfit : Fits enc path) (hne : path ≠ [])
    (hno : s.changeDir (enc.toUtf8 (upTo path 1)) = none) :
    ∃ name, names enc (upTo path 1) = [name] := by
  have hfitFirst := hfit.upTo 1
  have hslash := slash_not_mem_takeWhile (path.drop 1)
  obtain ⟨a, r, rfl⟩ := List.exists_cons_of_ne_nil hne
  by_cases ha : a = 47
  · subst ha
    have hupTo : upTo (47 :: r) 1 = [] ++ 47 :: r.takeWhile (· ≠ 47) := rfl
    rw [hupTo] at hfitFirst
    have hnames := names_append hfitFirst
    rw [← hupTo] at hnames
    have hw : r.takeWhile (· ≠ 47) ≠ [] := by
      intro hw
      apply changeDir_eq_none hno
      rw [resolve_eq (hfit.upTo 1), hnames, hw]
      exact s.tree.root
    exact ⟨_, hnames.trans (names_of_not_mem hfitFirst.right hslash hw)⟩
  · refine ⟨_, names_of_not_mem hfitFirst ?_ (List.cons_ne_nil a _)⟩
    rw [upTo, List.mem_append, not_or]
    exact ⟨by simpa using Ne.symm ha, hslash⟩

/-- With nothing cut, the first byte of the copy is that of the path. -/
theorem makeRest_first (h0 : 0 ∉ path) (s : Server) :
    makeRest enc (marked path 1) (path.length - 1) s 0
      = makeRest enc (marked path 1) (path.length - 1 - 1) s 1 := by
  cases hn : path.length - 1 with
  | zero => rfl
  | succ n =>
    have hlt : 0 < path.length := by omega
    have hread := getElem?_marked_of_lt (m := 1) Nat.zero_lt_one hlt
    have hne : path[0] ≠ 0 := fun hzero => h0 (hzero ▸ List.getElem_mem hlt)
    rw [makeRest, hread, List.getElem?_eq_getElem hlt, Option.bind_some, if_neg hne]
    rfl

/-- From a prefix that could be entered. -/
theorem makeRest_of_stops (hfit : Fits enc path) (h0 : 0 ∉ path) (hj : 0 < j)
    (hlen : j ≤ path.length) (hcd : s.changeDir (enc.toUtf8 (path.take j)) = some s')
    (hupTo : upTo path j = path.take j)
    (hnext : j < path.length →
      path[j]? = some 47 ∧ s.changeDir (enc.toUtf8 (upTo path (j + 1))) = none) :
    ∃ ok s'', makeRest enc (marked path j) (path.length - 1 - j) s' j = some (ok, s'')
      ∧ DirTree.Made (Along enc s.cwd path) s.tree s''.tree
      ∧ (¬ [47, 47] <:+: path
        → (∀ k, s.tree.node (base s.cwd path ++ (names enc path).take k) ≠ some .file)
        → ok = true ∧ s''.cwd = base s.cwd path ++ names enc path) := by
  obtain ⟨htree, hcwd⟩ := changeDir_eq_some hcd
  rw [← hupTo, resolve_eq (hfit.upTo j), base_upTo hj] at hcwd
  have hsame : DirTree.Made (Along enc s.cwd path) s.tree s'.tree := by
    rw [htree]
    exact DirTree.Made.refl _ _
  obtain ⟨ok, s'', heq, hmade, hok⟩ := makeRest_spec (s := s') (along_upTo hfit s.cwd) hfit h0
    (Nat.le_refl j) rfl hcwd hsame
  refine ⟨ok, s'', heq, hmade, fun hdouble hnofile => hok hdouble ?_⟩
  rcases Nat.eq_or_lt_of_le hlen with hjlen | hlt
  · intro q hq hle
    have hlen' := hle.length_le
    rw [hjlen, upTo_length, List.length_append] at hlen'
    exact absurd (List.length_eq_zero_iff.mp (by omega)) hq
  · obtain ⟨hslash, hno⟩ := hnext hlt
    have hmissing := changeDir_eq_none hno
    rw [resolve_eq (hfit.upTo (j + 1)), base_upTo (Nat.succ_pos j), ← htree] at hmissing
    rw [← htree] at hnofile
    exact ahead_of_missing hnofile hdouble hfit hslash hcwd hmissing

/-- From the first component, when nothing could be entered. -/
theorem makeRest_of_none (hfit : Fits enc path) (h0 : 0 ∉ path) (hne : path ≠ [])
    (hno : s.changeDir (enc.toUtf8 (upTo path 1)) = none) :
    ∃ ok s', ((makeEnter enc s (upTo path 1)).bind fun r =>
        if r.1 then makeRest enc (marked path 1) (path.length - 1) r.2 0 else some r)
        = some (ok, s')
      ∧ DirTree.Made (Along enc s.cwd path) s.tree s'.tree
      ∧ (¬ [47, 47] <:+: path
        → (∀ k, s.tree.node (base s.cwd path ++ (names enc path).take k) ≠ some .file)
        → ok = true ∧ s'.cwd = base s.cwd path ++ names enc path) := by
  obtain ⟨name, hname⟩ := names_first hfit hne hno
  have hplace : ∀ s₁ : Server, s₁.cwd = s.cwd →
      resolve s₁.cwd (enc.toUtf8 (upTo path 1)) = base s.cwd path ++ [name] := by
    intro s₁ hs₁
    rw [resolve_eq (hfit.upTo 1), base_upTo Nat.zero_lt_one, hname, hs₁]
  have hfirst : upTo path 1 ≠ [] := by
    obtain ⟨a, r, rfl⟩ := List.exists_cons_of_ne_nil hne
    exact List.cons_ne_nil a _
  have hdir : s.tree.node (base s.cwd path) = some .dir := by
    unfold base
    split
    · exact s.tree.root
    · exact DirTree.isDir_iff.mp s.inside
  have hfree : (∀ k, s.tree.node (base s.cwd path ++ (names enc path).take k) ≠ some .file) →
      s.tree.node (base s.cwd path ++ [name]) = none := by
    intro hnofile
    have hmissing := changeDir_eq_none hno
    rw [hplace s rfl] at hmissing
    obtain ⟨l, hl⟩ := along_upTo hfit s.cwd 1
    have hfile := hnofile l
    rw [← hl, hname] at hfile
    cases hnode : s.tree.node (base s.cwd path ++ [name]) with
    | none => rfl
    | some kind =>
      cases kind
      · exact absurd hnode hmissing
      · exact absurd hnode hfile
  rcases makeEnter_spec (hfit.upTo 1) hfirst hplace with ⟨heq, hnone⟩ | ⟨s', heq, hcwd, hmk⟩
  · rw [heq]
    refine ⟨false, s, rfl, DirTree.Made.refl _ _, fun _ hnofile => ?_⟩
    have hsome := DirTree.mkdir_isSome hdir (hfree hnofile)
    rw [hnone] at hsome
    cases hsome
  · have hmade := (DirTree.Made.refl (Along enc s.cwd path) s.tree).mkdir (hname ▸ along_upTo hfit s.cwd 1) hmk
    rw [← hname] at hcwd
    obtain ⟨ok, s'', heq', hmade', hok⟩ := makeRest_spec (s := s') (m := 1)
      (along_upTo hfit s.cwd) hfit h0 (Nat.le_refl 1) rfl hcwd hmade
    rw [heq, Option.bind_some, if_pos rfl, makeRest_first h0]
    refine ⟨ok, s'', heq', hmade', fun hdouble hnofile => hok hdouble ?_⟩
    intro q hq _
    obtain ⟨_, _, hrest⟩ := DirTree.mkdir_eq_some hmk
    have hnone := DirTree.node_append_of_none (hfree hnofile) q
    rw [hcwd, hname, hrest _ (by simpa using hq)]
    exact hnone

theorem start_marked (path : List UInt8) : path ++ [0] = marked path path.length := by
  rw [marked, List.take_length, List.drop_length]
  exact (List.append_nil _).symm ▸ rfl

/-- The first command of all has the whole path. -/
theorem ftpMkPath_eq_none (h0 : 0 ∉ path) (hne : path ≠ []) (hfit : ¬ Fits enc path) (s : Server) :
    ftpMkPath enc s path = none := by
  have hstring := stringAt_cut (i := path.length) h0 (.inl rfl)
  rw [List.take_length] at hstring
  rw [ftpMkPath, start_marked, enterExisting, if_neg (List.length_pos_iff.mpr hne).ne', hstring,
    Option.bind_some, ftpCdDir_eq_none hfit]
  rfl

theorem mkPathOk_of_fits (h0 : 0 ∉ path) (hne : path ≠ []) (hfit : Fits enc path) (s : Server) :
    MkPathOk enc s path := by
  obtain ⟨s', j, heq, hstops⟩ := enterExisting_spec (s := s) hfit h0
    (Nat.lt_succ_self path.length) (List.length_pos_iff.mpr hne) (Nat.le_refl _) (.inl rfl)
    fun hlt => absurd hlt (lt_irrefl _)
  rw [MkPathOk, ftpMkPath, start_marked, heq, Option.bind_some]
  rcases hstops with ⟨rfl, rfl, hno⟩ | ⟨hj, hlen, hcd, hupTo, hnext⟩
  · rw [if_pos rfl, Nat.max_eq_right (Nat.zero_le 1), stringAt_first h0 hne, Option.bind_some]
    obtain ⟨ok, s'', hrun, hmade, hok⟩ := makeRest_of_none hfit h0 hne hno
    exact ⟨ok, s'', hrun, hmade, fun _ => hok⟩
  · rw [if_neg hj.ne', Nat.max_eq_left hj]
    obtain ⟨ok, s'', hrun, hmade, hok⟩ := makeRest_of_stops hfit h0 hj hlen hcd hupTo hnext
    exact ⟨ok, s'', hrun, hmade, fun _ => hok⟩

/-- A path is made as it should be exactly when the commands with it have a place in the buffers. -/
theorem mk_path_ok (enc : LosslessDoubleByte) (s : Server) (h0 : 0 ∉ path) :
    MkPathOk enc s path ↔ path = [] ∨ Fits enc path := by
  by_cases hne : path = []
  · subst hne
    refine ⟨fun _ => .inl rfl, fun _ => ⟨false, s, rfl, DirTree.Made.refl _ _, ?_⟩⟩
    intro hnil
    exact absurd rfl hnil
  · constructor
    · intro h
      right
      by_contra hfit
      obtain ⟨ok, s', heq, _⟩ := h
      rw [ftpMkPath_eq_none h0 hne hfit] at heq
      cases heq
    · intro h
      exact mkPathOk_of_fits h0 hne (h.resolve_left hne) s

/-- Texts that have no characters but those of ASCII. -/
def asciiOnly : LosslessDoubleByte where
  char _ _ := none
  high := by simp
  short := by simp
  trail := by simp
  nonempty := by simp

/-- A server that has its root only. -/
def rootServer : Server where
  tree := {
    node := fun p => if p = [] then some .dir else none
    root := rfl
    parent := by simp }
  cwd := []
  inside := rfl

example : (ftpMkPath asciiOnly rootServer (ascii "/a/b")).map (fun r => (r.1, r.2.cwd))
    = some (true, [ascii "a", ascii "b"]) := by decide

theorem mk_path_ok_root : MkPathOk asciiOnly rootServer (ascii "/a/b")
    ↔ ascii "/a/b" = [] ∨ Fits asciiOnly (ascii "/a/b") :=
  mk_path_ok asciiOnly rootServer (by decide)

/-- A name of 250 bytes is written beyond the end of `cmd`. -/
theorem not_mk_path_ok : ¬ MkPathOk asciiOnly rootServer (List.replicate 250 97) := by
  intro h
  obtain ⟨ok, s', heq, _⟩ := h
  have hlen : (List.replicate 250 (97 : UInt8)).length = 250 := List.length_replicate
  have h0 : 0 ∉ List.replicate 250 (97 : UInt8) := fun hmem =>
    absurd (List.eq_of_mem_replicate hmem) (by decide)
  have hne : List.replicate 250 (97 : UInt8) ≠ [] := List.ne_nil_of_length_pos (by omega)
  have hfit : ¬ Fits asciiOnly (List.replicate 250 97) := by
    intro hfit
    have hle := hfit.2.1
    omega
  rw [ftpMkPath_eq_none h0 hne hfit] at heq
  cases heq

end VdCamera.Ftp
