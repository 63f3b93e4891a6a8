import VdCamera.Storage.PathPermission

/-!
# The permitted tree

The check of a path is one of the first six bytes of the resolved path: it also lets through the
directories beside `/media` whose names begin in the same way.
-/

namespace VdCamera.Storage

open Misc

variable {sys : PathSystem} {path n : List UInt8} {r : CanonPath} {mode : Nat} {isKind : Nat → Bool}

/-- `/media` itself or below `/media/`. -/
def CanonPath.InMedia (r : CanonPath) : Prop :=
  r.text = ascii "/media" ∨ ascii "/media/" <+: r.text

/-- Below a directory of the root with a longer name that begins with `media`. -/
def CanonPath.Sibling (r : CanonPath) : Prop :=
  ∃ n, r.names.head? = some n ∧ ascii "media" <+: n ∧ n ≠ ascii "media"

/-! ## The text of a path -/

theorem ascii_media : ascii "/media" = 47 :: ascii "media" := rfl

theorem ascii_media_slash : ascii "/media/" = 47 :: (ascii "media" ++ [47]) := rfl

theorem text_cons {names : List (List UInt8)} (h : r.names = n :: names) :
    r.text = 47 :: (n ++ names.flatMap (47 :: ·)) := by
  unfold CanonPath.text
  rw [h, if_neg (List.cons_ne_nil _ _), List.flatMap_cons]
  rfl

/-- What is in front of a byte that a word does not have decides whether the word is a beginning. -/
theorem isPrefix_of_append {m rest : List UInt8} (hrest : ∀ b, rest.head? = some b → b ∉ m)
    (h : m <+: n ++ rest) : m <+: n := by
  induction m generalizing n with
  | nil => exact List.nil_prefix
  | cons b m ih =>
    cases n with
    | nil =>
      obtain ⟨t, ht⟩ := h
      exact absurd List.mem_cons_self (hrest b (by rw [← List.nil_append rest, ← ht]; rfl))
    | cons c n =>
      rw [List.cons_append, List.cons_prefix_cons] at h
      rw [List.cons_prefix_cons]
      exact ⟨h.1, ih (fun b hb hmem => hrest b hb (List.mem_cons_of_mem _ hmem)) h.2⟩

/-- Behind a name there is a slash or the terminator. -/
theorem head_behind (names : List (List UInt8)) :
    ∀ b, (names.flatMap (47 :: ·) ++ [0]).head? = some b → b ∉ ascii "media" := by
  intro b hb
  cases names with
  | nil =>
    cases hb
    decide
  | cons n names =>
    cases hb
    decide

/-- The test of the six bytes. -/
theorem strncmp_iff :
    strncmpZero r.text FS_PATH_PERMISSION FS_PATH_PERMISSION_LEN = true ↔
      ∃ n, r.names.head? = some n ∧ ascii "media" <+: n := by
  have htake : (FS_PATH_PERMISSION ++ [0]).take FS_PATH_PERMISSION_LEN = 47 :: ascii "media" := rfl
  unfold strncmpZero
  rw [htake, beq_iff_eq]
  cases hn : r.names with
  | nil =>
    have htext : r.text = [47] := if_pos hn
    rw [htext]
    constructor
    · intro h
      exact absurd h (by decide)
    · rintro ⟨n, h, -⟩
      cases h
  | cons n names =>
    have hlen : FS_PATH_PERMISSION_LEN = (ascii "media").length + 1 := rfl
    rw [text_cons hn, List.cons_append, hlen, List.take_succ_cons, List.cons.injEq,
      List.append_assoc]
    constructor
    · rintro ⟨-, h⟩
      refine ⟨n, rfl, isPrefix_of_append (head_behind names) ?_⟩
      rw [← h]
      exact List.take_prefix _ _
    · rintro ⟨n', h, hpre⟩
      cases h
      refine ⟨rfl, ?_⟩
      obtain ⟨t, rfl⟩ := hpre
      rw [List.append_assoc, List.take_left]

theorem inMedia_iff : r.InMedia ↔ r.names.head? = some (ascii "media") := by
  unfold CanonPath.InMedia
  rw [ascii_media, ascii_media_slash]
  cases hn : r.names with
  | nil =>
    have htext : r.text = [47] := if_pos hn
    rw [htext]
    constructor
    · intro h
      exact absurd h (by decide)
    · intro h
      cases h
  | cons n names =>
    have hslash : 47 ∉ n := (r.valid n (by rw [hn]; exact List.mem_cons_self)).2.1
    rw [text_cons hn, List.cons_prefix_cons, List.cons.injEq, List.head?_cons, Option.some.injEq]
    constructor
    · rintro (⟨-, h⟩ | ⟨-, h⟩)
      · cases names with
        | nil => rwa [List.flatMap_nil, List.append_nil] at h
        | cons n' names =>
          have hmem : 47 ∈ ascii "media" := by
            rw [← h, List.flatMap_cons]
            exact List.mem_append_right _ List.mem_cons_self
          exact absurd hmem (by decide)
      · obtain ⟨t, rfl⟩ : ascii "media" <+: n := by
          apply isPrefix_of_append _ ((List.prefix_append _ _).trans h)
          intro b hb
          exact head_behind names b (by rw [List.head?_append, hb]; rfl)
        rw [List.append_assoc, List.prefix_append_right_inj] at h
        cases t with
        | nil => rw [List.append_nil]
        | cons b t =>
          rw [List.cons_append, List.cons_prefix_cons] at h
          rw [← h.1] at hslash
          exact absurd (List.mem_append_right _ List.mem_cons_self) hslash
    · rintro rfl
      cases names with
      | nil => exact .inl ⟨rfl, List.append_nil _⟩
      | cons n names => exact .inr ⟨rfl, by simp⟩

/-! ## The two checks -/

/-- What lets a path through. -/
theorem pathCheck_pos : pathCheck sys mode isKind path > 0 ↔ ∃ r, sys.realpath path = some r ∧
    (∃ n, r.names.head? = some n ∧ ascii "media" <+: n) ∧ sys.access path mode = true ∧
    ∃ st, sys.stat path = some st ∧ isKind st = true := by
  unfold pathCheck
  cases sys.realpath path with
  | none => simp
  | some r =>
    simp only [Option.some.injEq, exists_eq_left']
    rw [← strncmp_iff]
    cases strncmpZero r.text FS_PATH_PERMISSION FS_PATH_PERMISSION_LEN with
    | false => simp
    | true =>
      cases sys.access path mode with
      | false => simp
      | true =>
        cases sys.stat path with
        | none => simp
        | some st =>
          cases hk : isKind st with
          | false => simp [hk]
          | true => simp [hk]

/-- What is let through is in the permitted tree. -/
structure Confined (sys : PathSystem) (path : List UInt8) : Prop where
  dir : isPathDir sys path > 0 → ∃ r, sys.realpath path = some r ∧ r.InMedia
  file : isPathRegularFile sys path > 0 → ∃ r, sys.realpath path = some r ∧ r.InMedia

/-- The path can be accessed and is of the kind. -/
def Accessible (sys : PathSystem) (mode : Nat) (isKind : Nat → Bool) (path : List UInt8) : Prop :=
  sys.access path mode = true ∧ ∃ st, sys.stat path = some st ∧ isKind st = true

theorem confined_check_iff :
    (pathCheck sys mode isKind path > 0 → ∃ r, sys.realpath path = some r ∧ r.InMedia) ↔
      ∀ r, sys.realpath path = some r → r.Sibling → ¬ Accessible sys mode isKind path := by
  rw [pathCheck_pos]
  constructor
  · rintro h r hr ⟨n, hn, hpre, hne⟩ hacc
    obtain ⟨r', hr', hmedia⟩ := h ⟨r, hr, ⟨n, hn, hpre⟩, hacc⟩
    rw [hr, Option.some.injEq] at hr'
    rw [inMedia_iff, ← hr', hn, Option.some.injEq] at hmedia
    exact hne hmedia
  · rintro h ⟨r, hr, ⟨n, hn, hpre⟩, hacc⟩
    refine ⟨r, hr, inMedia_iff.mpr ?_⟩
    by_contra hne
    rw [hn, Option.some.injEq] at hne
    exact h r hr ⟨n, hn, hpre, hne⟩ hacc

/-- Every path that is let through is in the permitted tree if and only if none beside `/media` with a
name that begins so could be accessed. -/
theorem confined_iff (sys : PathSystem) (path : List UInt8) :
    Confined sys path ↔ ∀ r, sys.realpath path = some r → r.Sibling →
      ¬ Accessible sys X_OK S_ISDIR path ∧ ¬ Accessible sys R_OK S_ISREG path := by
  constructor
  · rintro ⟨hdir, hfile⟩ r hr hsib
    exact ⟨confined_check_iff.mp hdir r hr hsib, confined_check_iff.mp hfile r hr hsib⟩
  · intro h
    exact ⟨confined_check_iff.mpr fun r hr hsib => (h r hr hsib).1,
      confined_check_iff.mpr fun r hr hsib => (h r hr hsib).2⟩

/-- The directory `/media2`. -/
def besideMedia : PathSystem where
  realpath _ := some ⟨[ascii "media2"], by decide⟩
  access _ _ := true
  stat _ := some 0x41ED

theorem not_confined : ¬ Confined besideMedia (ascii "/media2") := by
  intro h
  obtain ⟨r, hr, hmedia⟩ := h.dir (by decide)
  cases hr
  rw [inMedia_iff] at hmedia
  exact absurd hmedia (by decide)

end VdCamera.Storage
