import VdCamera.Config.JsonCfg
import Mathlib.Data.List.Nodup

/-!
# Items, written and read back
-/

namespace VdCamera.Config

open Misc

variable {σ τ : Type}

/-! ## The hash table -/

theorem mem_addItems {tab : List (JsonCfgItem σ)} {jc : JsonCfg σ} {addr : UInt32}
    {item : JsonCfgItem σ} :
    item ∈ tab.foldl jsonCfgParserAddItem jc addr
      ↔ item ∈ jc addr ∨ item ∈ tab ∧ calParserFieldHashPos item.field = addr := by
  induction tab generalizing jc with
  | nil => simp
  | cons entry tab ih =>
    rw [List.foldl_cons, ih, jsonCfgParserAddItem]
    by_cases h : addr = calParserFieldHashPos entry.field
    · rw [if_pos h]
      constructor
      · rintro (hm | hm)
        · rcases List.mem_cons.mp hm with rfl | hm
          · exact .inr ⟨List.mem_cons_self .., h.symm⟩
          · exact .inl hm
        · exact .inr ⟨List.mem_cons_of_mem _ hm.1, hm.2⟩
      · rintro (hm | ⟨hm, ha⟩)
        · exact .inl (List.mem_cons_of_mem _ hm)
        · rcases List.mem_cons.mp hm with rfl | hm
          · exact .inl (List.mem_cons_self ..)
          · exact .inr ⟨hm, ha⟩
    · rw [if_neg h]
      constructor
      · rintro (hm | hm)
        · exact .inl hm
        · exact .inr ⟨List.mem_cons_of_mem _ hm.1, hm.2⟩
      · rintro (hm | ⟨hm, ha⟩)
        · exact .inl hm
        · rcases List.mem_cons.mp hm with rfl | hm
          · exact absurd ha.symm h
          · exact .inr ⟨hm, ha⟩

/-- An item is found under its own field when no two items have one field. -/
theorem jsonCfgFind_init {tab : List (JsonCfgItem σ)} (hnd : (tab.map (·.field)).Nodup)
    {item : JsonCfgItem σ} (h : item ∈ tab) :
    jsonCfgFind (jsonCfgInit tab) item.field = some item := by
  have hmem : item ∈ jsonCfgInit tab (calParserFieldHashPos item.field) :=
    mem_addItems.mpr (.inr ⟨h, rfl⟩)
  have hsome : (jsonCfgFind (jsonCfgInit tab) item.field).isSome = true :=
    List.find?_isSome.mpr ⟨item, hmem, by simp⟩
  obtain ⟨item', hfind⟩ := Option.isSome_iff_exists.mp hsome
  have hfield : item'.field = item.field := by simpa using List.find?_some hfind
  have hmem' : item' ∈ tab := by
    rcases mem_addItems.mp (List.mem_of_find?_eq_some hfind) with hm | hm
    · cases hm
    · exact hm.1
  rw [hfind, List.inj_on_of_nodup_map hnd hmem' h hfield]

/-! ## Sections -/

/-- The items of a section one after another, each written and read into another structure. -/
def roundItems : List (JsonCfgItem σ) → σ → σ → σ
  | [], _, c₀ => c₀
  | item :: tab, c, c₀ => roundItems tab (item.set c).1 (item.get (item.set c).2 c₀)

/-- What a section writes is read back item by item. -/
theorem readNew_writeNew {tab : List (JsonCfgItem σ)} (hnd : (tab.map (·.field)).Nodup)
    (c c₀ : σ) : readNew tab (writeNew tab c).2 c₀ = roundItems tab c c₀ := by
  have hsub : ∀ (part : List (JsonCfgItem σ)) (c c₀ : σ), part ⊆ tab →
      readMembers (jsonCfgInit tab) (writeMembers (jsonCfgInit tab) part c).2 c₀
        = roundItems part c c₀ := by
    intro part
    induction part with
    | nil =>
      intro c c₀ _
      rfl
    | cons item part ih =>
      intro c c₀ h
      have hfind := jsonCfgFind_init hnd (h (List.mem_cons_self ..))
      rw [writeMembers, hfind]
      simp only [readMembers, hfind]
      exact ih _ _ fun item hm => h (List.mem_cons_of_mem _ hm)
  exact hsub tab c c₀ (List.Subset.refl _)

/-- A writer that finds every field in its range leaves the structure as it is. -/
theorem writeNew_kept {tab : List (JsonCfgItem σ)} (hnd : (tab.map (·.field)).Nodup) {c : σ}
    (h : ∀ item ∈ tab, (item.set c).1 = c) : (writeNew tab c).1 = c := by
  have hsub : ∀ part : List (JsonCfgItem σ), part ⊆ tab →
      (writeMembers (jsonCfgInit tab) part c).1 = c := by
    intro part
    induction part with
    | nil =>
      intro _
      rfl
    | cons item part ih =>
      intro hp
      have hm := hp (List.mem_cons_self ..)
      rw [writeMembers, jsonCfgFind_init hnd hm]
      simp only [h item hm]
      exact ih fun item hm => hp (List.mem_cons_of_mem _ hm)
  exact hsub tab (List.Subset.refl _)

/-- The item of a section whose writer leaves the section as it is. -/
theorem sectionItem_kept (field : List UInt8) {tab : List (JsonCfgItem τ)} {proj : σ → τ}
    {upd : τ → σ → σ} {c : σ} (h : (writeNew tab (proj c)).1 = proj c)
    (hupd : upd (proj c) c = c) : ((sectionItem field tab proj upd).set c).1 = c := by
  simp only [sectionItem, h, hupd]

theorem sectionItem_round (field : List UInt8) (tab : List (JsonCfgItem τ)) (proj : σ → τ)
    (upd : τ → σ → σ) (c c₀ : σ) :
    (sectionItem field tab proj upd).get ((sectionItem field tab proj upd).set c).2 c₀
      = upd (readNew tab (writeNew tab (proj c)).2 (proj c₀)) c₀ := rfl

/-! ## Fields -/

section

variable (field : List UInt8) {c c₀ : σ}

theorem ofInt_toNat (b : UInt8) : UInt8.ofInt (b.toNat : Int) = b := by
  have hlt := b.toNat_lt
  have hmod : ((b.toNat : Int) % 2 ^ 8).toNat = b.toNat := by omega
  rw [UInt8.ofInt, hmod]
  exact UInt8.ofNat_toNat

theorem ofInt_toNat16 (w : UInt16) : UInt16.ofInt (w.toNat : Int) = w := by
  have hlt := w.toNat_lt
  have hmod : ((w.toNat : Int) % 2 ^ 16).toNat = w.toNat := by omega
  rw [UInt16.ofInt, hmod]
  exact UInt16.ofNat_toNat

/-- Every value of an enumeration has a name that is read as the value. -/
def Named (tab : EnumStr) («end» : UInt8) : Prop :=
  ∀ e : Fin «end».toNat, (enum2str tab (e : Nat)).map (str2enum tab) = some ((e : Nat) : Int)

instance (tab : EnumStr) («end» : UInt8) : Decidable (Named tab «end») :=
  inferInstanceAs (Decidable (∀ e : Fin «end».toNat, _ = some ((e : Nat) : Int)))

theorem enumItem_round {tab : EnumStr} {«end» : UInt8} (hn : Named tab «end») (dft : UInt8)
    (name : List UInt8) {proj : σ → UInt8} {upd : UInt8 → σ → σ} (h : proj c < «end») :
    (enumItem field tab «end» dft name proj upd).get
      ((enumItem field tab «end» dft name proj upd).set c).2 c₀ = upd (proj c) c₀ := by
  obtain ⟨s, hs, he⟩ :=
    Option.map_eq_some_iff.mp (hn ⟨(proj c).toNat, UInt8.lt_iff_toNat_lt.mp h⟩)
  simp only [enumItem, hs, Option.getD_some, he, ofInt_toNat, if_neg (UInt8.not_le.mpr h)]

theorem boundedItem_kept {bound : Int} (dft reset : UInt8) {proj : σ → UInt8}
    (upd : UInt8 → σ → σ) (h : ((proj c).toNat : Int) ≤ bound) :
    ((boundedItem field bound dft reset proj upd).set c).1 = c := by
  simp only [boundedItem, if_neg (Int.not_lt.mpr h)]

theorem boundedItem_round {bound : Int} (dft reset : UInt8) {proj : σ → UInt8}
    (upd : UInt8 → σ → σ) (h : ((proj c).toNat : Int) ≤ bound) :
    (boundedItem field bound dft reset proj upd).get
      ((boundedItem field bound dft reset proj upd).set c).2 c₀ = upd (proj c) c₀ := by
  have hrange : (0 : Int) ≤ (proj c).toNat ∧ ((proj c).toNat : Int) ≤ bound :=
    ⟨Int.natCast_nonneg _, h⟩
  simp only [boundedItem, if_neg (Int.not_lt.mpr h), if_pos hrange, ofInt_toNat]

theorem byteItem_round {proj : σ → UInt8} {upd : UInt8 → σ → σ} :
    (byteItem field proj upd).get ((byteItem field proj upd).set c).2 c₀ = upd (proj c) c₀ := by
  simp only [byteItem, ofInt_toNat]

theorem portItem_round (dft : UInt16) {proj : σ → UInt16} {upd : UInt16 → σ → σ}
    (h : proj c ≠ 0) :
    (portItem field dft proj upd).get ((portItem field dft proj upd).set c).2 c₀
      = upd (proj c) c₀ := by
  have hpos : (proj c).toNat ≠ 0 := fun h0 => h (UInt16.toNat_inj.mp h0)
  have hlt := (proj c).toNat_lt
  have hrange : (0 : Int) < (proj c).toNat ∧ ((proj c).toNat : Int) ≤ 65535 := by omega
  simp only [portItem, if_pos hrange, ofInt_toNat16]

end

/-! ## Addresses -/

/-- Digits of a part, one after another. -/
def octetDigits : Option Nat → List UInt8 → Option (Option Nat)
  | cur, [] => some cur
  | cur, c :: s => if isDigit c then (octetDigit cur c).bind fun cur => octetDigits cur s else none

theorem ptonLoop_digits {ds : List UInt8} {cur cur' : Option Nat}
    (h : octetDigits cur ds = some cur') (parts : List Nat) (s : List UInt8) :
    ptonLoop parts cur (ds ++ s) = ptonLoop parts cur' s := by
  induction ds generalizing cur with
  | nil =>
    cases h
    rfl
  | cons c ds ih =>
    rw [octetDigits] at h
    split at h
    · rename_i hc
      obtain ⟨cur₁, hcur, h⟩ := Option.bind_eq_some_iff.mp h
      rw [List.cons_append, ptonLoop, if_pos hc, hcur]
      exact ih h
    · cases h

/-- The text of a part is read as the part. -/
theorem octetDigits_fmtInt (b : UInt8) : octetDigits none (fmtInt b.toNat) = some (some b.toNat) := by
  have hall : ∀ n : Fin 256, octetDigits none (fmtInt (n : Nat)) = some (some (n : Nat)) := by
    decide +kernel
  exact hall ⟨b.toNat, b.toNat_lt⟩

theorem ptonLoop_dot {parts : List Nat} (h : parts.length ≠ 3) (n : Nat) (s : List UInt8) :
    ptonLoop parts (some n) (46 :: s) = ptonLoop (parts ++ [n]) none s := by
  rw [ptonLoop]
  simp [isDigit, h]

/-- The text of an address is read as the address. -/
theorem inetPton_inetNtop (ip : InAddr) : inetPton (inetNtop ip) = some ip := by
  have hlast : ptonLoop [ip.a.toNat, ip.b.toNat, ip.c.toNat] none (fmtInt ip.d.toNat)
      = some [ip.a.toNat, ip.b.toNat, ip.c.toNat, ip.d.toNat] := by
    have h := ptonLoop_digits (octetDigits_fmtInt ip.d) [ip.a.toNat, ip.b.toNat, ip.c.toNat] []
    rw [List.append_nil] at h
    rw [h, ptonLoop]
    rfl
  unfold inetPton inetNtop
  rw [ptonLoop_digits (octetDigits_fmtInt ip.a), ptonLoop_dot (by decide), List.nil_append,
    ptonLoop_digits (octetDigits_fmtInt ip.b), ptonLoop_dot (by simp), List.singleton_append,
    ptonLoop_digits (octetDigits_fmtInt ip.c), ptonLoop_dot (by simp), List.cons_append,
    List.singleton_append, hlast]
  simp

theorem addrItem_round (field dft : List UInt8) {proj : σ → InAddr} {upd : InAddr → σ → σ}
    {c c₀ : σ} :
    (addrItem field dft proj upd).get ((addrItem field dft proj upd).set c).2 c₀
      = upd (proj c) c₀ := by
  simp only [addrItem, inetPton_inetNtop]

end VdCamera.Config
